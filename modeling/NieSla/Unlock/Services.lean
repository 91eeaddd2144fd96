import NieSla.Util.Text

/-! The services of a media-unlock table, as the agent and the Worker both list them. -/
namespace NieSla.Unlock

/-- The providers that both sides know. -/
inductive Provider where
  | tiktok
  | disneyPlus
  | netflix
  | youtube
  | amazonPv
  | reddit
  | chatgpt
  deriving DecidableEq

namespace Provider

def id : Provider → List Char
  | tiktok => "tiktok".toList
  | disneyPlus => "disney_plus".toList
  | netflix => "netflix".toList
  | youtube => "youtube".toList
  | amazonPv => "amazon_pv".toList
  | reddit => "reddit".toList
  | chatgpt => "chatgpt".toList

def name : Provider → List Char
  | tiktok => "TikTok".toList
  | disneyPlus => "Disney+".toList
  | netflix => "Netflix".toList
  | youtube => "Youtube".toList
  | amazonPv => "AmazonPV".toList
  | reddit => "Reddit".toList
  | chatgpt => "ChatGPT".toList

end Provider

/-- `unlock_service_order`, by id and name. -/
def unlockServiceOrder : List Provider :=
  [.tiktok, .disneyPlus, .netflix, .youtube, .amazonPv, .reddit, .chatgpt]

/-- `NQ_MEDIA_PROVIDERS`: the entries share their ids and names with the agent. -/
def nqMediaProviders : List (List Char × Provider) :=
  [("tiktok".toList, .tiktok), ("disney+".toList, .disneyPlus), ("disneyplus".toList, .disneyPlus),
    ("netflix".toList, .netflix), ("youtube".toList, .youtube), ("amazonpv".toList, .amazonPv),
    ("reddit".toList, .reddit), ("chatgpt".toList, .chatgpt)]

/-- A service as both parsers return it. -/
structure Service where
  id : List Char
  name : List Char
  status : List Char
  region : List Char
  method : List Char
  deriving DecidableEq

/-- The provider's service, unless all its values are empty. -/
def Provider.service (provider : Provider) (status region method : List Char) : Option Service :=
  if status = [] ∧ region = [] ∧ method = [] then none
  else some ⟨provider.id, provider.name, status, region, method⟩

theorem mem_unlockServiceOrder (provider : Provider) : provider ∈ unlockServiceOrder := by
  cases provider <;> decide

theorem nodup_unlockServiceOrder : unlockServiceOrder.Nodup := by decide

theorem Provider.id_injective : Function.Injective Provider.id := by
  intro first second same
  cases first <;> cases second <;> first | rfl | exact absurd same (by decide)

section Values

variable {provider : Provider} {status region method status' region' method' : List Char}

theorem id_of_service {service : Service} (built : provider.service status region method = some service) :
    service.id = provider.id := by
  unfold Provider.service at built
  split at built
  · cases built
  · exact (congrArg Service.id (Option.some.inj built)).symm

theorem service_eq_none :
    provider.service status region method = none ↔ status = [] ∧ region = [] ∧ method = [] := by
  unfold Provider.service
  split <;> simp_all

theorem service_inj :
    provider.service status region method = provider.service status' region' method' ↔
      status = status' ∧ region = region' ∧ method = method' := by
  unfold Provider.service
  split_ifs <;> simp_all

end Values

/-- Two lists of services that hold one service for a provider at most agree when they do so for each provider. -/
theorem perm_iff_of_provider {first second : List Service} {one other : Provider → Option Service}
    (nodup : first.Nodup) (nodup' : second.Nodup) (mem : ∀ service, service ∈ first ↔ ∃ p, one p = some service)
    (mem' : ∀ service, service ∈ second ↔ ∃ p, other p = some service)
    (keyed : ∀ p service, one p = some service → service.id = p.id)
    (keyed' : ∀ p service, other p = some service → service.id = p.id) :
    first.Perm second ↔ ∀ p, one p = other p := by
  rw [List.perm_ext_iff_of_nodup nodup nodup']
  simp only [mem, mem']
  constructor
  · intro same p
    apply Option.ext
    intro service
    constructor
    · intro found
      obtain ⟨q, found'⟩ := (same service).mp ⟨p, found⟩
      rwa [Provider.id_injective ((keyed p service found).symm.trans (keyed' q service found'))]
    · intro found
      obtain ⟨q, found'⟩ := (same service).mpr ⟨p, found⟩
      rwa [Provider.id_injective ((keyed' p service found).symm.trans (keyed q service found'))]
  · intro same service
    simp only [same]

end NieSla.Unlock
