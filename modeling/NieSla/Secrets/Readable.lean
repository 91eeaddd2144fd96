import NieSla.Secrets.Rotation

/-! What a store lets be read after its values are encrypted anew, and after changes of the materials. -/
namespace NieSla.Secrets

open Auth (Subject)
open Base64 (Bytes)

variable {aead : Aead} {sha256Hex : String → String} {env later : Env} {attempt : Attempt} {slot : Slot}
  {hash value after secret material : String} {needs : Bool} {iv : Iv} {store : Store}

/-! One value. -/

/-- The secrets that a slot can hold. -/
def Slot.Fits (sha256Hex : String → String) (hash secret : String) : Slot → Prop
  | .credential _ => sha256Hex secret = hash
  | .turnstileSecretKey => trim secret = secret ∧ secret ≠ ""
  | _ => True

theorem fits_of_read (found : readSlot aead sha256Hex env slot hash value = some (secret, needs)) :
    slot.Fits sha256Hex hash secret := by
  cases slot with
  | credential subject =>
      change readCredential aead sha256Hex env subject hash value = some (secret, needs) at found
      unfold readCredential at found
      split at found
      · have same : sha256Hex secret = hash := of_decide_eq_true (Option.filter_eq_some_iff.mp found).2
        exact same
      · cases found
  | turnstileSecretKey =>
      change readTurnstileSecret aead env value = some (secret, needs) at found
      unfold readTurnstileSecret at found
      dsimp only at found
      split at found
      · cases found
      next some_ =>
        split at found
        · obtain ⟨read, named⟩ := Option.filter_eq_some_iff.mp found
          obtain ⟨opened, -, same⟩ := Option.map_eq_some_iff.mp read
          obtain ⟨trimmed, -⟩ := Prod.mk.inj same
          exact ⟨by rw [← trimmed, trim_trim], of_decide_eq_true named⟩
        · obtain ⟨trimmed, -⟩ := Prod.mk.inj (Option.some.inj found)
          exact ⟨by rw [← trimmed, trim_trim], trimmed ▸ some_⟩
  | _ => trivial

theorem readSlot_envelope (authentic : aead.Authentic) (fits : slot.Fits sha256Hex hash secret) (material : String)
    (iv : Iv) : readSlot aead sha256Hex env slot hash (envelope aead slot.scheme material iv secret) =
      if material ∈ slot.scheme.materials env then some (secret, decide (material ≠ slot.scheme.primary env))
      else none := by
  have trimmed : ∀ scheme, trim (envelope aead scheme material iv secret) = envelope aead scheme material iv secret :=
    fun scheme => trim_envelope material iv secret
  have sealed_ : ∀ scheme, isEncryptedSecret (envelope aead scheme material iv secret) = true :=
    fun scheme => isEncryptedSecret_envelope material iv secret
  have some_ : ∀ scheme, envelope aead scheme material iv secret ≠ "" :=
    fun scheme => envelope_ne_empty material iv secret
  have opened : ∀ scheme, decryptSecret aead scheme env (payloadOf (envelope aead scheme material iv secret)) = _ :=
    fun scheme => decryptSecret_envelope authentic material iv secret
  cases slot with
  | credential subject =>
      have same : sha256Hex secret = hash := fits
      change readCredential aead sha256Hex env subject hash
        (envelope aead (agentCredential subject) material iv secret) = _
      rw [readCredential, if_pos (sealed_ _), opened]
      split
      next member =>
        rw [Option.filter_some, if_pos (decide_eq_true same)]
        exact (if_pos member).symm
      next other => exact (if_neg other).symm
  | turnstileSecretKey =>
      obtain ⟨plain, named⟩ : trim secret = secret ∧ secret ≠ "" := fits
      change readTurnstileSecret aead env (envelope aead totp material iv secret) = _
      unfold readTurnstileSecret
      dsimp only
      rw [trimmed, if_neg (some_ _), if_pos (sealed_ _), opened]
      split
      next member =>
        rw [Option.map_some, Option.filter_some, plain, if_pos (decide_eq_true named)]
        exact (if_pos member).symm
      next other => exact (if_neg other).symm
  | nqImageHostToken =>
      change readNqToken aead env (envelope aead nqImageHost material iv secret) = _
      unfold readNqToken
      dsimp only
      rw [trimmed, if_pos (sealed_ _), opened]
      rfl
  | totpSecret | totpPendingSecret =>
      change readStoredSecret aead env (envelope aead totp material iv secret) = _
      unfold readStoredSecret
      dsimp only
      rw [trimmed, if_neg (some_ _), if_pos (sealed_ _), opened]
      rfl
  | alertTelegramBotToken | alertResendApiKey | alertChannelSecrets =>
      change readAlertSecret aead env (envelope aead alert material iv secret) = _
      unfold readAlertSecret
      dsimp only
      rw [trimmed, if_neg (some_ _), if_pos (sealed_ _), opened]
      rfl

/-- What needs no migration is read alike in every deployment with the same primary material. -/
theorem readSlot_of_primary (same : slot.scheme.primary later = slot.scheme.primary env)
    (found : readSlot aead sha256Hex env slot hash value = some (secret, false)) :
    readSlot aead sha256Hex later slot hash value = some (secret, false) := by
  cases slot with
  | credential subject =>
      dsimp only [Slot.scheme] at same
      change readCredential aead sha256Hex env subject hash value = some (secret, false) at found
      change readCredential aead sha256Hex later subject hash value = some (secret, false)
      unfold readCredential at found ⊢
      split at found
      next sealed_ =>
        obtain ⟨opened, fits⟩ := Option.filter_eq_some_iff.mp found
        rw [if_pos sealed_, decryptSecret_of_primary same opened, Option.filter_some, if_pos fits]
      next => cases found
  | turnstileSecretKey =>
      dsimp only [Slot.scheme] at same
      change readTurnstileSecret aead env value = some (secret, false) at found
      change readTurnstileSecret aead later value = some (secret, false)
      unfold readTurnstileSecret at found ⊢
      dsimp only at found ⊢
      split at found
      · cases found
      next some_ =>
        split at found
        next sealed_ =>
          obtain ⟨read, named⟩ := Option.filter_eq_some_iff.mp found
          obtain ⟨⟨plain, needs⟩, opened, pair⟩ := Option.map_eq_some_iff.mp read
          obtain ⟨trimmed, rfl⟩ := Prod.mk.inj pair
          rw [if_neg some_, if_pos sealed_, decryptSecret_of_primary same opened, Option.map_some, trimmed,
            Option.filter_some, if_pos named]
        next => cases found
  | nqImageHostToken =>
      dsimp only [Slot.scheme] at same
      change readNqToken aead env value = some (secret, false) at found
      change readNqToken aead later value = some (secret, false)
      unfold readNqToken at found ⊢
      dsimp only at found ⊢
      split at found
      next sealed_ => rw [if_pos sealed_, decryptSecret_of_primary same found]
      next => cases found
  | totpSecret | totpPendingSecret =>
      dsimp only [Slot.scheme] at same
      change readStoredSecret aead env value = some (secret, false) at found
      change readStoredSecret aead later value = some (secret, false)
      unfold readStoredSecret at found ⊢
      dsimp only at found ⊢
      split at found
      · cases found
      next some_ =>
        split at found
        next sealed_ => rw [if_neg some_, if_pos sealed_, decryptSecret_of_primary same found]
        next =>
          split at found
          · simp at found
          · simp at found
  | alertTelegramBotToken | alertResendApiKey | alertChannelSecrets =>
      dsimp only [Slot.scheme] at same
      change readAlertSecret aead env value = some (secret, false) at found
      change readAlertSecret aead later value = some (secret, false)
      unfold readAlertSecret at found ⊢
      dsimp only at found ⊢
      split at found
      · cases found
      next some_ =>
        split at found
        next sealed_ => rw [if_neg some_, if_pos sealed_, decryptSecret_of_primary same found]
        next => simp at found

theorem readSlot_empty : readSlot aead sha256Hex env slot hash "" = none := by
  cases slot
  all_goals rfl

theorem readSlot_blank (blank : isBlank slot value = true) : readSlot aead sha256Hex env slot hash value = none := by
  cases slot with
  | credential subject => cases blank
  | totpSecret | totpPendingSecret =>
      rw [of_decide_eq_true blank]
      rfl
  | nqImageHostToken =>
      have empty : trim value = "" := of_decide_eq_true blank
      change readNqToken aead env value = none
      unfold readNqToken
      rw [empty]
      rfl
  | turnstileSecretKey | alertTelegramBotToken | alertResendApiKey | alertChannelSecrets =>
      exact if_pos (of_decide_eq_true blank)

/-- What happens to a value that is not saved anew: nothing, or it is encrypted under the primary material. -/
inductive Rewritten (aead : Aead) (sha256Hex : String → String) (env : Env) (slot : Slot) (hash before : String) :
    String → Prop
  | same : Rewritten aead sha256Hex env slot hash before before
  | anew (secret : String) (iv : Iv) (named : slot.scheme.primary env ≠ "")
      (read : readSlot aead sha256Hex env slot hash before = some (secret, true)) :
      Rewritten aead sha256Hex env slot hash before (envelope aead slot.scheme (slot.scheme.primary env) iv secret)

theorem readSlot_anew (authentic : aead.Authentic) (fits : slot.Fits sha256Hex hash secret)
    (named : slot.scheme.primary env ≠ "") (iv : Iv) : readSlot aead sha256Hex env slot hash
      (envelope aead slot.scheme (slot.scheme.primary env) iv secret) = some (secret, false) := by
  rw [readSlot_envelope authentic fits, if_pos (primary_mem_materials named)]
  simp

theorem Rewritten.read (authentic : aead.Authentic) (rewritten : Rewritten aead sha256Hex env slot hash value after) :
    (readSlot aead sha256Hex env slot hash after).map Prod.fst =
      (readSlot aead sha256Hex env slot hash value).map Prod.fst := by
  cases rewritten with
  | same => rfl
  | anew secret iv named read =>
      rw [readSlot_anew authentic (fits_of_read read) named iv, read]
      rfl

/-- A value that needs no migration stays. -/
theorem Rewritten.eq (rewritten : Rewritten aead sha256Hex env slot hash value after)
    (settled : ∀ secret, readSlot aead sha256Hex env slot hash value ≠ some (secret, true)) : after = value := by
  cases rewritten with
  | same => rfl
  | anew secret iv named read => exact absurd read (settled secret)

theorem Rewritten.trans (authentic : aead.Authentic) {last : String}
    (first : Rewritten aead sha256Hex env slot hash value after)
    (second : Rewritten aead sha256Hex env slot hash after last) : Rewritten aead sha256Hex env slot hash value last := by
  cases first with
  | same => exact second
  | anew secret iv named read =>
      have fresh := readSlot_anew authentic (fits_of_read read) named iv
      rw [second.eq fun other => by simp [fresh]]
      exact .anew secret iv named read

/-- Nothing is left to be encrypted anew. -/
def Settled (aead : Aead) (sha256Hex : String → String) (env : Env) (slot : Slot) (hash value : String) : Prop :=
  isBlank slot value = true ∨ ∃ secret, readSlot aead sha256Hex env slot hash value = some (secret, false)

theorem Settled.ne (settled : Settled aead sha256Hex env slot hash value) (secret : String) :
    readSlot aead sha256Hex env slot hash value ≠ some (secret, true) := by
  rcases settled with blank | ⟨other, read⟩
  · simp [readSlot_blank blank]
  · simp [read]

theorem Settled.read (settled : Settled aead sha256Hex env slot hash value)
    (same : slot.scheme.primary later = slot.scheme.primary env) :
    readSlot aead sha256Hex later slot hash value = readSlot aead sha256Hex env slot hash value := by
  rcases settled with blank | ⟨secret, read⟩
  · rw [readSlot_blank blank, readSlot_blank blank]
  · rw [read, readSlot_of_primary same read]

/-! Stores. -/

theorem encryptSecret_eq_some {scheme : Scheme} (found : encryptSecret aead scheme env iv secret = some value) :
    scheme.primary env ≠ "" ∧ value = envelope aead scheme (scheme.primary env) iv secret := by
  unfold encryptSecret at found
  split at found
  · cases found
  next named => exact ⟨named, (Option.some.inj found).symm⟩

@[simp] theorem Store.text_set (store : Store) (slot other : Slot) (value : String) :
    (store.set slot value).text other = if other = slot then value else store.text other :=
  Function.update_apply ..

@[simp] theorem Store.hashOf_set (store : Store) (slot other : Slot) (value : String) :
    (store.set slot value).hashOf other = store.hashOf other := by
  cases other
  all_goals rfl

/-- Each value stays, or is encrypted anew. -/
structure Store.Rewritten (aead : Aead) (sha256Hex : String → String) (env : Env) (store after : Store) : Prop where
  tokenHash : after.tokenHash = store.tokenHash
  subjects : after.subjects = store.subjects
  text : ∀ slot, Secrets.Rewritten aead sha256Hex env slot (store.hashOf slot) (store.text slot) (after.text slot)

theorem Store.Rewritten.refl (store : Store) : store.Rewritten aead sha256Hex env store := ⟨rfl, rfl, fun _ => .same⟩

variable {next : Store}

theorem Store.Rewritten.hashOf (rewritten : store.Rewritten aead sha256Hex env next) (slot : Slot) :
    next.hashOf slot = store.hashOf slot := by
  cases slot with
  | credential subject => exact congrFun rewritten.tokenHash subject
  | _ => rfl

theorem Store.Rewritten.trans (authentic : aead.Authentic) {last : Store}
    (first : store.Rewritten aead sha256Hex env next) (second : next.Rewritten aead sha256Hex env last) :
    store.Rewritten aead sha256Hex env last where
  tokenHash := second.tokenHash.trans first.tokenHash
  subjects := second.subjects.trans first.subjects
  text slot := (first.text slot).trans authentic (first.hashOf slot ▸ second.text slot)

theorem Store.Rewritten.read (authentic : aead.Authentic) (rewritten : store.Rewritten aead sha256Hex env next)
    (slot : Slot) : (next.read aead sha256Hex env slot).map Prod.fst =
      (store.read aead sha256Hex env slot).map Prod.fst := by
  unfold Store.read
  rw [rewritten.hashOf]
  exact (rewritten.text slot).read authentic

def Store.Settled (aead : Aead) (sha256Hex : String → String) (env : Env) (store : Store) (slot : Slot) : Prop :=
  Secrets.Settled aead sha256Hex env slot (store.hashOf slot) (store.text slot)

theorem Store.Rewritten.settled (rewritten : store.Rewritten aead sha256Hex env next)
    (settled : store.Settled aead sha256Hex env slot) : next.Settled aead sha256Hex env slot := by
  unfold Store.Settled
  rw [rewritten.hashOf, (rewritten.text slot).eq settled.ne]
  exact settled

theorem rewritten_set (read : store.read aead sha256Hex env slot = some (secret, true))
    (named : slot.scheme.primary env ≠ "") (iv : Iv) :
    store.Rewritten aead sha256Hex env (store.set slot (envelope aead slot.scheme (slot.scheme.primary env) iv secret))
    where
  tokenHash := rfl
  subjects := rfl
  text other := by
    rw [Store.text_set]
    split
    next same =>
      subst same
      exact .anew secret iv named read
    next => exact .same

/-! A deployment, with a cipher that writes the material in front of the secret. -/

theorem byte_lt (n : Nat) : n % 256 < 256 := Nat.mod_lt n (by decide)

def byteOf (n : Nat) : Fin 256 := ⟨n % 256, byte_lt n⟩

def charBytes (c : Char) : Bytes := [byteOf 1, byteOf (c.toNat / 65536), byteOf (c.toNat / 256), byteOf c.toNat]

def textBytes (text : String) : Bytes := text.toList.flatMap charBytes ++ [byteOf 0]

/-- The text at the front, and what follows it. -/
def readText : Bytes → List Char × Bytes
  | 1 :: a :: b :: c :: rest =>
      let later := readText rest
      (Char.ofNat (a.val * 65536 + b.val * 256 + c.val) :: later.1, later.2)
  | _ :: rest => ([], rest)
  | [] => ([], [])

theorem readText_textBytes (text : String) (rest : Bytes) : readText (textBytes text ++ rest) = (text.toList, rest) := by
  unfold textBytes
  rw [List.append_assoc]
  induction text.toList with
  | nil => rfl
  | cons c chars ih =>
      have code : c.toNat / 65536 % 256 * 65536 + c.toNat / 256 % 256 * 256 + c.toNat % 256 = c.toNat := by
        have valid := c.valid
        change c.toNat < 0xd800 ∨ 0xdfff < c.toNat ∧ c.toNat < 0x110000 at valid
        omega
      have spelled : charBytes c ++ (chars.flatMap charBytes ++ ([byteOf 0] ++ rest)) =
          1 :: byteOf (c.toNat / 65536) :: byteOf (c.toNat / 256) :: byteOf c.toNat ::
            (chars.flatMap charBytes ++ ([byteOf 0] ++ rest)) := rfl
      rw [List.flatMap_cons, List.append_assoc, spelled, readText, ih]
      simp only [byteOf, code, Char.ofNat_toNat]

def spelledOut : Aead where
  encrypt material _ _ secret := textBytes material ++ textBytes secret
  decrypt material _ _ bytes :=
    if (readText bytes).1 = material.toList then some (String.ofList (readText (readText bytes).2).1) else none

theorem authentic_spelledOut : spelledOut.Authentic where
  opens material iv context secret := by
    have second := readText_textBytes secret []
    rw [List.append_nil] at second
    unfold spelledOut
    dsimp only
    rw [readText_textBytes, if_pos rfl, second, String.ofList_toList]
  rejects other iv context secret := by
    unfold spelledOut
    dsimp only
    rw [readText_textBytes, if_neg fun same => other (String.toList_inj.mp same).symm]
  tagged material iv context secret := by simp [spelledOut, textBytes]

def someAttempt : Attempt where
  iv _ := ⟨List.replicate 12 (byteOf 7), rfl⟩
  fails _ := false

def oldKeys : Env := { totpEncryptionKey := "old" }

def newKeys : Env := { totpEncryptionKey := "new", previousEncryptionKey := "old" }

/-- A plain token of Telegram, from before secrets were encrypted. -/
def plainStore : Store := ⟨fun slot => if slot = .alertTelegramBotToken then "1:a" else "", fun _ => "", []⟩

/-! The migration. -/

theorem read_of_migrationRead (some_ : isBlank slot (store.text slot) = false)
    (read : store.migrationRead aead sha256Hex env slot = some (secret, true)) :
    store.read aead sha256Hex env slot = some (secret, true) := by
  unfold Store.migrationRead at read
  split at read
  next turnstile =>
    subst turnstile
    obtain ⟨same, plain⟩ := Prod.mk.inj (Option.some.inj read)
    have named : trim (store.text .turnstileSecretKey) ≠ "" := of_decide_eq_false some_
    change readTurnstileSecret aead env (store.text .turnstileSecretKey) = _
    unfold readTurnstileSecret
    dsimp only
    rw [if_neg named, if_neg (by simpa using plain), same]
  next => exact read

theorem rewrite_spec (attempt : Attempt) (authentic : aead.Authentic)
    (some_ : isBlank slot (store.text slot) = false) :
    let done := rewrite aead env attempt slot (store.migrationRead aead sha256Hex env slot) store
    store.Rewritten aead sha256Hex env done.1 ∧
      (slot ≠ .turnstileSecretKey → done.2.isSome = true → done.1.Settled aead sha256Hex env slot) := by
  cases found : store.migrationRead aead sha256Hex env slot with
  | none => exact ⟨.refl store, fun _ some_ => by cases some_⟩
  | some pair =>
      obtain ⟨secret, needs⟩ := pair
      cases needs with
      | false =>
          refine ⟨.refl store, fun other _ => .inr ⟨secret, ?_⟩⟩
          unfold Store.migrationRead at found
          rwa [if_neg other] at found
      | true =>
          have read := read_of_migrationRead some_ found
          unfold rewrite
          dsimp only
          cases encrypted : encryptSecret aead slot.scheme env (attempt.iv slot) secret with
          | none => exact ⟨.refl store, fun _ some_ => by cases some_⟩
          | some value =>
              obtain ⟨named, rfl⟩ := encryptSecret_eq_some encrypted
              dsimp only
              split
              · exact ⟨.refl store, fun _ some_ => by cases some_⟩
              · refine ⟨rewritten_set read named _, fun _ _ => .inr ⟨secret, ?_⟩⟩
                rw [Store.hashOf_set, Store.text_set, if_pos rfl]
                exact readSlot_anew authentic (fits_of_read read) named _

/-- A migration encrypts anew, and where it returns it has settled its values. -/
def Migrates (aead : Aead) (sha256Hex : String → String) (env : Env) (slots : Store → List Slot)
    (migrate : Store → Store × Option Migrated) : Prop :=
  ∀ store, store.Rewritten aead sha256Hex env (migrate store).1 ∧
    ((migrate store).2.isSome = true → ∀ slot ∈ slots store, slot ≠ .turnstileSecretKey →
      (migrate store).1.Settled aead sha256Hex env slot)

theorem migrateSlots_spec (authentic : aead.Authentic) (slots : List Slot) :
    Migrates aead sha256Hex env (fun _ => slots) (migrateSlots aead sha256Hex env attempt slots) := by
  induction slots with
  | nil => exact fun store => ⟨.refl store, fun _ _ member => absurd member List.not_mem_nil⟩
  | cons slot rest ih =>
      intro store
      unfold migrateSlots
      split
      next blank =>
        obtain ⟨rewritten, done⟩ := ih store
        refine ⟨rewritten, fun some_ other member named => ?_⟩
        rcases List.mem_cons.mp member with rfl | later
        · exact rewritten.settled (.inl blank)
        · exact done some_ other later named
      next some_ =>
        obtain ⟨first, settled⟩ := rewrite_spec attempt authentic (Bool.eq_false_iff.mpr some_)
        generalize rewrite aead env attempt slot (store.migrationRead aead sha256Hex env slot) store = done
          at first settled
        obtain ⟨next, _ | migrated⟩ := done
        · exact ⟨first, fun none_ => by cases none_⟩
        · obtain ⟨second, others⟩ := ih next
          refine ⟨first.trans authentic second, fun returned other member named => ?_⟩
          rcases List.mem_cons.mp member with rfl | later
          · exact second.settled (settled named rfl)
          · exact others (by simpa using returned) other later named

theorem migrateWith_spec (authentic : aead.Authentic) (scheme : Scheme) (slots : List Slot) :
    Migrates aead sha256Hex env (fun _ => slots) (migrateWith aead sha256Hex env attempt scheme slots) := by
  intro store
  unfold migrateWith
  split
  · exact ⟨.refl store, fun none_ => by cases none_⟩
  · exact migrateSlots_spec authentic slots store

/-- The values of a component. -/
def Component.slots (store : Store) : Component → List Slot
  | .totp => [.totpSecret, .totpPendingSecret]
  | .agentCredentials => store.subjects.map .credential
  | .alerts => [.alertTelegramBotToken, .alertResendApiKey, .alertChannelSecrets]
  | .legacyNqImageHost => [.nqImageHostToken]
  | .turnstile => [.turnstileSecretKey]

theorem migrations_spec (attempt : Attempt) (authentic : aead.Authentic) :
    ∀ entry ∈ migrations aead sha256Hex env attempt,
      Migrates aead sha256Hex env (fun store => entry.1.slots store) entry.2 := by
  unfold migrations
  simp only [List.forall_mem_cons, List.not_mem_nil, false_imp_iff, implies_true, and_true]
  refine ⟨?_, ?_, ?_, ?_, ?_⟩
  · exact migrateWith_spec authentic totp [.totpSecret, .totpPendingSecret]
  · exact fun store => migrateWith_spec authentic totp (store.subjects.map .credential) store
  · exact migrateWith_spec authentic alert [.alertTelegramBotToken, .alertResendApiKey, .alertChannelSecrets]
  · exact migrateWith_spec authentic nqImageHost [.nqImageHostToken]
  · exact migrateSlots_spec authentic [.turnstileSecretKey]

/-- Where a report is `ok`, each component has settled its values. -/
theorem migrateEach_spec (authentic : aead.Authentic) {list : List (Component × (Store → Store × Option Migrated))}
    (all : ∀ entry ∈ list, Migrates aead sha256Hex env (fun store => entry.1.slots store) entry.2) (store : Store)
    (report : MigrationReport) : store.Rewritten aead sha256Hex env (migrateEach list store report).1 ∧
      ((migrateEach list store report).2.ok = true → report.errors = [] ∧
        ∀ entry ∈ list, ∀ slot ∈ entry.1.slots store, slot ≠ .turnstileSecretKey →
          (migrateEach list store report).1.Settled aead sha256Hex env slot) := by
  induction list generalizing store report with
  | nil => exact ⟨.refl store, fun ok => ⟨List.isEmpty_iff.mp ok, fun _ member => absurd member List.not_mem_nil⟩⟩
  | cons entry rest ih =>
      obtain ⟨component, migrate⟩ := entry
      obtain ⟨first, others⟩ := List.forall_mem_cons.mp all
      obtain ⟨rewritten, settled⟩ := first store
      dsimp only at rewritten settled
      unfold migrateEach
      cases done : migrate store with
      | mk next counts =>
          rw [done] at rewritten settled
          cases counts with
          | none =>
              obtain ⟨second, none_⟩ := ih others next { report with errors := report.errors ++ [component] }
              refine ⟨rewritten.trans authentic second, fun ok => ?_⟩
              exact absurd (none_ ok).1 (by simp)
          | some counts =>
              obtain ⟨second, later⟩ := ih others next { report with results := report.results ++ [(component, counts)] }
              refine ⟨rewritten.trans authentic second, fun ok => ⟨(later ok).1, fun entry member slot inside named => ?_⟩⟩
              rcases List.mem_cons.mp member with rfl | among
              · exact second.settled (settled rfl slot inside named)
              · refine (later ok).2 entry among slot ?_ named
                have same : entry.1.slots next = entry.1.slots store := by
                  unfold Component.slots
                  rw [rewritten.subjects]
                exact same ▸ inside

/-- The values that are stored. -/
def Store.slots (store : Store) : List Slot :=
  [.totpSecret, .totpPendingSecret, .alertTelegramBotToken, .alertResendApiKey, .alertChannelSecrets,
    .nqImageHostToken, .turnstileSecretKey] ++ store.subjects.map .credential

theorem exists_migration (aead : Aead) (sha256Hex : String → String) (env : Env) (attempt : Attempt)
    (stored : slot ∈ store.slots) : ∃ entry ∈ migrations aead sha256Hex env attempt, slot ∈ entry.1.slots store := by
  unfold Store.slots at stored
  rcases List.mem_append.mp stored with meta_ | row
  · simp only [List.mem_cons, List.not_mem_nil, or_false] at meta_
    rcases meta_ with rfl | rfl | rfl | rfl | rfl | rfl | rfl
    all_goals simp [migrations, Component.slots]
  · exact ⟨_, List.mem_cons_of_mem _ List.mem_cons_self, row⟩

theorem migrateEncryptionMaterials_spec (authentic : aead.Authentic) (sha256Hex : String → String) (env : Env)
    (attempt : Attempt) (store : Store) :
    store.Rewritten aead sha256Hex env (migrateEncryptionMaterials aead sha256Hex env attempt store).1 ∧
      ((migrateEncryptionMaterials aead sha256Hex env attempt store).2.ok = true →
        ∀ slot ∈ store.slots, slot ≠ .turnstileSecretKey →
          (migrateEncryptionMaterials aead sha256Hex env attempt store).1.Settled aead sha256Hex env slot) := by
  unfold migrateEncryptionMaterials
  split
  · exact ⟨.refl store, fun ok => by cases ok⟩
  · obtain ⟨rewritten, settled⟩ := migrateEach_spec authentic (migrations_spec attempt authentic) store
      ⟨false, [], []⟩
    refine ⟨rewritten, fun ok slot stored named => ?_⟩
    obtain ⟨entry, member, inside⟩ := exists_migration aead sha256Hex env attempt stored
    exact (settled ok).2 entry member slot inside named

/-- A migration changes no secret, whatever fails; and once it has reported `ok`, every secret but the one of
Turnstile is read by the primary materials alone. -/
theorem migrateEncryptionMaterials_reads (authentic : aead.Authentic) (sha256Hex : String → String) (env : Env)
    (attempt : Attempt) (store : Store) :
    let done := migrateEncryptionMaterials aead sha256Hex env attempt store
    (∀ slot, (done.1.read aead sha256Hex env slot).map Prod.fst = (store.read aead sha256Hex env slot).map Prod.fst) ∧
      (done.2.ok = true → ∀ later : Env, (∀ slot : Slot, slot.scheme.primary later = slot.scheme.primary env) →
        ∀ slot ∈ store.slots, slot ≠ .turnstileSecretKey →
          (done.1.read aead sha256Hex later slot).map Prod.fst = (store.read aead sha256Hex env slot).map Prod.fst) := by
  intro done
  obtain ⟨rewritten, settled⟩ := migrateEncryptionMaterials_spec authentic sha256Hex env attempt store
  refine ⟨rewritten.read authentic, fun ok later same slot stored named => ?_⟩
  rw [← rewritten.read authentic]
  exact congrArg _ ((settled ok slot stored named).read (same slot))

theorem migrateEncryptionMaterials_reads_plain :
    ((migrateEncryptionMaterials spelledOut id oldKeys someAttempt plainStore).1.read spelledOut id oldKeys
      .alertTelegramBotToken).map Prod.fst = some "1:a" := by
  have plain : (plainStore.read spelledOut id oldKeys .alertTelegramBotToken).map Prod.fst = some "1:a" := rfl
  exact ((migrateEncryptionMaterials_reads authentic_spelledOut id oldKeys someAttempt plainStore).1 _).trans plain

/-! Runs. -/

/-- The value of a slot whose last saved secret is given. -/
def Held (aead : Aead) (sha256Hex : String → String) (env : Env) (slot : Slot) (hash value : String) :
    Option String → Prop
  | none => value = ""
  | some secret => slot.Fits sha256Hex hash secret ∧
      ∃ material ∈ slot.scheme.materials env, ∃ iv, value = envelope aead slot.scheme material iv secret

theorem Held.read (authentic : aead.Authentic) (held : Held aead sha256Hex env slot hash value (some secret)) :
    ∃ needs, readSlot aead sha256Hex env slot hash value = some (secret, needs) := by
  obtain ⟨fits, material, member, iv, rfl⟩ := held
  exact ⟨_, (readSlot_envelope authentic fits material iv).trans (if_pos member)⟩

theorem Held.ne_empty (held : Held aead sha256Hex env slot hash value (some secret)) : value ≠ "" := by
  obtain ⟨-, material, -, iv, rfl⟩ := held
  exact envelope_ne_empty material iv secret

theorem held_anew (fits : slot.Fits sha256Hex hash secret) (named : slot.scheme.primary env ≠ "") (iv : Iv) :
    Held aead sha256Hex env slot hash (envelope aead slot.scheme (slot.scheme.primary env) iv secret) (some secret) :=
  ⟨fits, _, primary_mem_materials named, iv, rfl⟩

theorem Held.rewritten (authentic : aead.Authentic) {saved : Option String}
    (held : Held aead sha256Hex env slot hash value saved)
    (rewritten : Rewritten aead sha256Hex env slot hash value after) : Held aead sha256Hex env slot hash after saved := by
  cases rewritten with
  | same => exact held
  | anew other iv named read =>
      cases saved with
      | none =>
          have empty : value = "" := held
          rw [empty, readSlot_empty] at read
          cases read
      | some secret =>
          obtain ⟨needs, found⟩ := held.read authentic
          obtain ⟨rfl, -⟩ := Prod.mk.inj (Option.some.inj (read.symm.trans found))
          exact held_anew held.1 named iv

/-- What needs no migration stays readable where its material stays among those that are tried. -/
theorem Held.configure (authentic : aead.Authentic) {saved : Option String}
    (held : Held aead sha256Hex env slot hash value saved)
    (settled : ∀ secret, readSlot aead sha256Hex env slot hash value ≠ some (secret, true))
    (kept : slot.scheme.primary env ∈ slot.scheme.materials later) :
    Held aead sha256Hex later slot hash value saved := by
  cases saved with
  | none => exact held
  | some secret =>
      obtain ⟨fits, material, member, iv, rfl⟩ := held
      refine ⟨fits, material, ?_, iv, rfl⟩
      have read : readSlot aead sha256Hex env slot hash _ = _ :=
        (readSlot_envelope authentic fits material iv).trans (if_pos member)
      by_cases same : material = slot.scheme.primary env
      · exact same ▸ kept
      · rw [decide_eq_true same] at read
        exact absurd read (settled secret)

/-- Each slot holds its secret, and needs no migration after one. -/
structure Sound (aead : Aead) (sha256Hex : String → String) (state : State) : Prop where
  held : ∀ slot, Held aead sha256Hex state.env slot (state.store.hashOf slot) (state.store.text slot) (state.saved slot)
  listed : ∀ subject, state.saved (.credential subject) ≠ none → subject ∈ state.store.subjects
  migrated : state.migrated = true → ∀ slot ≠ .turnstileSecretKey, ∀ secret,
    state.store.read aead sha256Hex state.env slot ≠ some (secret, true)
  resaved : state.resaved = true → ∀ secret,
    state.store.read aead sha256Hex state.env .turnstileSecretKey ≠ some (secret, true)

theorem sound_fresh (env : Env) : Sound aead sha256Hex (State.fresh env) where
  held _ := rfl
  listed _ some_ := absurd rfl some_
  migrated := nofun
  resaved := nofun

section Runs

variable {state : State}

theorem Store.Rewritten.read_ne (rewritten : store.Rewritten aead sha256Hex env next)
    (settled : ∀ secret, store.read aead sha256Hex env slot ≠ some (secret, true)) (secret : String) :
    next.read aead sha256Hex env slot ≠ some (secret, true) := by
  unfold Store.read
  rw [rewritten.hashOf, (rewritten.text slot).eq settled]
  exact settled secret

theorem Sound.rewritten (authentic : aead.Authentic) (sound : Sound aead sha256Hex state)
    (rewritten : state.store.Rewritten aead sha256Hex state.env next) :
    Sound aead sha256Hex { state with store := next } where
  held slot := by
    have held := (sound.held slot).rewritten authentic (rewritten.text slot)
    exact (rewritten.hashOf slot).symm ▸ held
  listed subject some_ := rewritten.subjects.symm ▸ sound.listed subject some_
  migrated done slot named := rewritten.read_ne (sound.migrated done slot named)
  resaved done := rewritten.read_ne (sound.resaved done)

theorem reread_spec (attempt : Attempt) (slot : Slot) (failed : Option String) (store : Store) :
    let done := reread aead env attempt slot failed (store.read aead sha256Hex env slot) store
    store.Rewritten aead sha256Hex env done.1 ∧ (attempt.fails slot = false →
      done.2 = (store.read aead sha256Hex env slot).map Prod.fst) := by
  cases read : store.read aead sha256Hex env slot with
  | none => exact ⟨.refl store, fun _ => rfl⟩
  | some found =>
      obtain ⟨secret, needs⟩ := found
      unfold reread
      dsimp only
      cases needs with
      | false => exact ⟨.refl store, fun _ => rfl⟩
      | true =>
          rw [if_pos rfl]
          cases encrypted : encryptSecret aead slot.scheme env (attempt.iv slot) secret with
          | none => exact ⟨.refl store, fun _ => rfl⟩
          | some value =>
              obtain ⟨named, rfl⟩ := encryptSecret_eq_some encrypted
              dsimp only
              split
              next fails => exact ⟨.refl store, fun succeeds => by simp [fails] at succeeds⟩
              next => exact ⟨rewritten_set read named _, fun _ => rfl⟩

theorem answer_spec (attempt : Attempt) (slot : Slot) (store : Store) :
    let done := answer aead sha256Hex env attempt slot store
    store.Rewritten aead sha256Hex env done.1 ∧ (attempt.fails slot = false →
      done.2 = (store.read aead sha256Hex env slot).map Prod.fst) := by
  cases slot with
  | totpPendingSecret | turnstileSecretKey => exact ⟨.refl store, fun _ => rfl⟩
  | totpSecret => exact reread_spec attempt .totpSecret none store
  | alertTelegramBotToken =>
      let stored := trim (store.text .alertTelegramBotToken)
      exact reread_spec attempt .alertTelegramBotToken (if isEncryptedSecret stored then none else some stored) store
  | alertResendApiKey =>
      let stored := trim (store.text .alertResendApiKey)
      exact reread_spec attempt .alertResendApiKey (if isEncryptedSecret stored then none else some stored) store
  | alertChannelSecrets => exact reread_spec attempt .alertChannelSecrets none store
  | nqImageHostToken => exact reread_spec attempt .nqImageHostToken none store
  | credential subject => exact reread_spec attempt (.credential subject) none store

/-- A secret is encrypted and stored; nothing else changes. -/
structure Saves (aead : Aead) (sha256Hex : String → String) (env : Env) (slot : Slot) (secret : String)
    (store next : Store) : Prop where
  named : slot.scheme.primary env ≠ ""
  text : ∃ iv, next.text = Function.update store.text slot
    (envelope aead slot.scheme (slot.scheme.primary env) iv secret)
  hash : ∀ other, other ≠ slot → next.hashOf other = store.hashOf other
  fits : slot.Fits sha256Hex (next.hashOf slot) secret
  subjects : ∀ subject ∈ store.subjects, subject ∈ next.subjects
  listed : ∀ subject, slot = .credential subject → subject ∈ next.subjects

theorem Saves.text_self (saves : Saves aead sha256Hex env slot secret store next) :
    ∃ iv, next.text slot = envelope aead slot.scheme (slot.scheme.primary env) iv secret := by
  obtain ⟨iv, text⟩ := saves.text
  exact ⟨iv, by rw [text, Function.update_self]⟩

theorem Saves.text_other (saves : Saves aead sha256Hex env slot secret store next) {other : Slot} (ne : other ≠ slot) :
    next.text other = store.text other := by
  obtain ⟨iv, text⟩ := saves.text
  rw [text, Function.update_of_ne ne]

theorem Saves.read_ne (authentic : aead.Authentic) (saves : Saves aead sha256Hex env slot secret store next)
    {other : Slot} (settled : other ≠ slot → ∀ plain, store.read aead sha256Hex env other ≠ some (plain, true))
    (plain : String) : next.read aead sha256Hex env other ≠ some (plain, true) := by
  unfold Store.read
  by_cases same : other = slot
  · subst same
    obtain ⟨iv, text⟩ := saves.text_self
    rw [text, readSlot_anew authentic saves.fits saves.named iv]
    simp
  · rw [saves.hash other same, saves.text_other same]
    exact settled same plain

theorem Sound.saves (authentic : aead.Authentic) (sound : Sound aead sha256Hex state)
    (saves : Saves aead sha256Hex state.env slot secret state.store next) : Sound aead sha256Hex
      { state with
        store := next
        saved := Function.update state.saved slot (some secret)
        resaved := state.resaved || decide (slot = .turnstileSecretKey) } where
  held other := by
    change Held aead sha256Hex state.env other (next.hashOf other) (next.text other)
      (Function.update state.saved slot (some secret) other)
    by_cases same : other = slot
    · subst same
      obtain ⟨iv, text⟩ := saves.text_self
      rw [text, Function.update_self]
      exact held_anew saves.fits saves.named iv
    · rw [saves.hash other same, saves.text_other same, Function.update_of_ne same]
      exact sound.held other
  listed subject some_ := by
    by_cases same : Slot.credential subject = slot
    · exact saves.listed subject same.symm
    · exact saves.subjects subject (sound.listed subject (by simpa [Function.update_of_ne same] using some_))
  migrated done other named := saves.read_ne authentic fun _ => sound.migrated done other named
  resaved done := by
    refine saves.read_ne authentic fun other => sound.resaved ?_
    simpa [Ne.symm other] using done

theorem save_spec {attempt : Attempt} (saved : save aead env attempt slot secret store = (next, true)) :
    slot.scheme.primary env ≠ "" ∧
      next = store.set slot (envelope aead slot.scheme (slot.scheme.primary env) (attempt.iv slot) secret) := by
  unfold save at saved
  split at saved
  · cases saved
  next value encrypted =>
    obtain ⟨named, rfl⟩ := encryptSecret_eq_some encrypted
    split at saved
    · cases saved
    · exact ⟨named, (Prod.mk.inj saved).1.symm⟩

theorem save_failed {attempt : Attempt} (failed : save aead env attempt slot secret store = (next, false)) :
    next = store := by
  unfold save at failed
  split at failed
  · exact (Prod.mk.inj failed).1.symm
  · split at failed
    · exact (Prod.mk.inj failed).1.symm
    · cases failed

theorem saveTrimmed_spec {attempt : Attempt} (saved : (saveTrimmed aead env attempt slot value store).2 = true) :
    trim value ≠ "" ∧ saveTrimmed aead env attempt slot value store =
      (store.set slot (envelope aead slot.scheme (slot.scheme.primary env) (attempt.iv slot) (trim value)), true) := by
  unfold saveTrimmed at saved ⊢
  split at saved
  · cases saved
  next some_ =>
    rw [if_neg some_]
    exact ⟨some_, Prod.ext (save_spec (Prod.ext rfl saved)).2 saved⟩

/-- A slot that is no credential. -/
theorem saves_set (slot : Slot) (secret : String) (plain : ∀ subject, slot ≠ .credential subject)
    (fits : ∀ hash, slot.Fits sha256Hex hash secret) (named : slot.scheme.primary env ≠ "") (iv : Iv) :
    Saves aead sha256Hex env slot secret store
      (store.set slot (envelope aead slot.scheme (slot.scheme.primary env) iv secret)) where
  named := named
  text := ⟨iv, rfl⟩
  hash other _ := store.hashOf_set slot other _
  fits := fits _
  subjects _ member := member
  listed subject same := absurd same (plain subject)

theorem Sound.keep_save (authentic : aead.Authentic) (sound : Sound aead sha256Hex state) (slot : Slot)
    (plain : ∀ subject, slot ≠ .credential subject) (fits : ∀ hash, slot.Fits sha256Hex hash secret)
    (attempt : Attempt) :
    Sound aead sha256Hex (state.keep slot secret (save aead state.env attempt slot secret state.store)) := by
  rcases done : save aead state.env attempt slot secret state.store with ⟨next, saved⟩
  cases saved with
  | false => exact save_failed done ▸ sound
  | true =>
      obtain ⟨named, rfl⟩ := save_spec done
      exact sound.saves authentic (saves_set slot secret plain fits named _)

theorem Sound.keep_saveTrimmed (authentic : aead.Authentic) (sound : Sound aead sha256Hex state) (slot : Slot)
    (plain : ∀ subject, slot ≠ .credential subject) (value : String)
    (fits : trim value ≠ "" → ∀ hash, slot.Fits sha256Hex hash (trim value)) (attempt : Attempt) :
    Sound aead sha256Hex
      (state.keep slot (trim value) (saveTrimmed aead state.env attempt slot value state.store)) := by
  unfold saveTrimmed
  split
  · exact sound
  next some_ => exact sound.keep_save authentic slot plain (fits some_) attempt

theorem Sound.keep_setupTOTP (authentic : aead.Authentic) (sound : Sound aead sha256Hex state) (attempt : Attempt)
    (secret : String) : Sound aead sha256Hex
      (state.keep .totpPendingSecret secret (setupTOTP aead state.env attempt secret state.store)) := by
  unfold setupTOTP
  split
  · exact sound
  · exact sound.keep_save authentic .totpPendingSecret (by simp) (fun _ => trivial) attempt

theorem Sound.keep_storeCredential (authentic : aead.Authentic) (sound : Sound aead sha256Hex state)
    (attempt : Attempt) (subject : Subject) (token : String) : Sound aead sha256Hex
      (state.keep (.credential subject) token
        (storeCredential aead sha256Hex state.env attempt subject token state.store)) := by
  unfold storeCredential
  split
  next next failed => exact save_failed failed ▸ sound
  next next saved =>
    obtain ⟨named, rfl⟩ := save_spec saved
    refine sound.saves authentic ⟨named, ⟨attempt.iv _, rfl⟩, fun other ne => ?_, ?_, fun other member => ?_, ?_⟩
    · cases other with
      | credential other => exact Function.update_of_ne (fun same => ne (congrArg Slot.credential same)) _ _
      | _ => rfl
    · change sha256Hex token = Function.update state.store.tokenHash subject (sha256Hex token) subject
      rw [Function.update_self]
    · dsimp only
      split
      · exact member
      · exact List.mem_append_left _ member
    · intro other same
      obtain rfl := Slot.credential.inj same
      dsimp only
      split
      next member => exact member
      next => exact List.mem_append_right _ List.mem_cons_self

theorem Sound.clear (sound : Sound aead sha256Hex state) (slot : Slot) (attempt : Attempt) :
    Sound aead sha256Hex (state.clear slot attempt) := by
  unfold State.clear
  split
  · exact sound
  · have read_ne {other : Slot} (settled : ∀ plain, state.store.read aead sha256Hex state.env other ≠ some (plain, true))
        (plain : String) : (state.store.set slot "").read aead sha256Hex state.env other ≠ some (plain, true) := by
      unfold Store.read
      rw [Store.hashOf_set, Store.text_set]
      split
      · simp [readSlot_empty]
      · exact settled plain
    refine ⟨fun other => ?_, fun subject some_ => ?_, fun done other named => read_ne (sound.migrated done other named),
      fun done => read_ne (sound.resaved done)⟩
    · dsimp only
      rw [Store.hashOf_set, Store.text_set, Function.update_apply]
      split
      · rfl
      · exact sound.held other
    · refine sound.listed subject fun none_ => some_ ?_
      dsimp only
      rw [Function.update_apply, none_]
      exact ite_self _

theorem verifyTOTP_none {attempt : Attempt} (left : verifyTOTP aead env attempt store = (next, none)) :
    next = store := by
  unfold verifyTOTP at left
  dsimp only at left
  split at left
  · exact (Prod.mk.inj left).1.symm
  · split at left
    · split at left
      next failed => exact (Prod.mk.inj left).1 ▸ save_failed failed
      next => cases (Prod.mk.inj left).2
    · exact (Prod.mk.inj left).1.symm

theorem verifyTOTP_some {attempt : Attempt} (moved : verifyTOTP aead env attempt store = (next, some secret)) :
    let value := if store.text .totpSecret = "" then store.text .totpPendingSecret else store.text .totpSecret
    let stored := store.set .totpSecret (envelope aead totp (totp.primary env) (attempt.iv .totpSecret) secret)
    (∃ needs, readStoredSecret aead env value = some (secret, needs)) ∧ totp.primary env ≠ "" ∧
      next = if attempt.fails .totpPendingSecret then stored else stored.set .totpPendingSecret "" := by
  unfold verifyTOTP at moved
  dsimp only at moved ⊢
  split at moved
  · cases (Prod.mk.inj moved).2
  next plain needs read =>
    split at moved
    · split at moved
      next => cases (Prod.mk.inj moved).2
      next saved =>
        obtain ⟨same, done⟩ := Prod.mk.inj moved
        obtain rfl := Option.some.inj done
        obtain ⟨named, rfl⟩ := save_spec saved
        exact ⟨⟨needs, read⟩, named, same.symm⟩
    · cases (Prod.mk.inj moved).2

/-- The secret that becomes the active one is the one that was saved. -/
theorem Sound.active (authentic : aead.Authentic) (sound : Sound aead sha256Hex state) {needs : Bool}
    (read : readStoredSecret aead state.env (if state.store.text .totpSecret = "" then
      state.store.text .totpPendingSecret else state.store.text .totpSecret) = some (secret, needs)) :
    (if (state.saved .totpSecret).isSome then state.saved .totpSecret else state.saved .totpPendingSecret) =
      some secret := by
  have active := sound.held .totpSecret
  have pending := sound.held .totpPendingSecret
  cases first : state.saved .totpSecret with
  | some plain =>
      rw [first] at active
      rw [if_neg active.ne_empty] at read
      obtain ⟨other, found⟩ := active.read authentic
      obtain ⟨rfl, -⟩ := Prod.mk.inj (Option.some.inj (found.symm.trans read))
      rfl
  | none =>
      rw [first] at active
      have empty : state.store.text .totpSecret = "" := active
      rw [if_pos empty] at read
      cases second : state.saved .totpPendingSecret with
      | none =>
          rw [second] at pending
          have none_ : state.store.text .totpPendingSecret = "" := pending
          rw [none_] at read
          cases read
      | some plain =>
          rw [second] at pending
          obtain ⟨other, found⟩ := pending.read authentic
          obtain ⟨rfl, -⟩ := Prod.mk.inj (Option.some.inj (found.symm.trans read))
          rfl

theorem Sound.activate (authentic : aead.Authentic) (sound : Sound aead sha256Hex state) (attempt : Attempt) :
    Sound aead sha256Hex (state.activate aead attempt) := by
  unfold State.activate
  split
  next next left => exact verifyTOTP_none left ▸ sound
  next next secret moved =>
    obtain ⟨⟨needs, read⟩, named, rfl⟩ := verifyTOTP_some moved
    have stored := sound.saves authentic (saves_set .totpSecret secret (by simp) (fun _ => trivial) named
      (attempt.iv .totpSecret))
    rw [decide_eq_false (by simp), Bool.or_false] at stored
    rw [sound.active authentic read]
    have cleared := stored.clear .totpPendingSecret attempt
    unfold State.clear at cleared
    dsimp only
    split
    next fails => exact stored
    next fails =>
      rw [if_neg fails] at cleared
      rw [Function.update_comm (by simp)]
      exact cleared

theorem Sound.disableTOTP (sound : Sound aead sha256Hex state) (attempt : Attempt) :
    Sound aead sha256Hex (state.disableTOTP aead attempt) := by
  have cleared := (sound.clear .totpSecret attempt).clear .totpPendingSecret attempt
  unfold State.disableTOTP
  dsimp only
  generalize (if state.store.text .totpSecret = "" then state.store.text .totpPendingSecret
    else state.store.text .totpSecret) = value
  split
  · exact sound
  · exact cleared

theorem Sound.serve (authentic : aead.Authentic) (sound : Sound aead sha256Hex state) (attempt : Attempt)
    (request : Request) : Sound aead sha256Hex (serve aead sha256Hex attempt state request) := by
  cases request with
  | setupTOTP secret => exact sound.keep_setupTOTP authentic attempt secret
  | verifyTOTP => exact sound.activate authentic attempt
  | disableTOTP => exact sound.disableTOTP attempt
  | setTelegramToken token =>
      exact sound.keep_saveTrimmed authentic .alertTelegramBotToken (by simp) token (fun _ _ => trivial) attempt
  | clearTelegramToken => exact sound.clear .alertTelegramBotToken attempt
  | setResendKey key =>
      exact sound.keep_saveTrimmed authentic .alertResendApiKey (by simp) key (fun _ _ => trivial) attempt
  | clearResendKey => exact sound.clear .alertResendApiKey attempt
  | updateChannelSecrets text =>
      exact sound.keep_save authentic .alertChannelSecrets (by simp) (fun _ => trivial) attempt
  | saveTurnstileConfig secret =>
      exact sound.keep_saveTrimmed authentic .turnstileSecretKey (by simp) secret
        (fun some_ _ => ⟨trim_trim secret, some_⟩) attempt
  | storeCredential subject token => exact sound.keep_storeCredential authentic attempt subject token

/-- A slot that holds a secret is stored. -/
theorem Sound.stored (sound : Sound aead sha256Hex state) {slot : Slot} (some_ : state.saved slot ≠ none) :
    slot ∈ state.store.slots := by
  cases slot with
  | credential subject => exact List.mem_append_right _ (List.mem_map_of_mem (sound.listed subject some_))
  | _ => exact List.mem_append_left _ (by decide)

theorem Sound.migrate (authentic : aead.Authentic) (sound : Sound aead sha256Hex state) (attempt : Attempt) :
    Sound aead sha256Hex (step aead sha256Hex state (.migrate attempt)) := by
  obtain ⟨rewritten, settled⟩ := migrateEncryptionMaterials_spec authentic sha256Hex state.env attempt state.store
  unfold Secrets.step
  dsimp only
  generalize migrateEncryptionMaterials aead sha256Hex state.env attempt state.store = done at rewritten settled ⊢
  obtain ⟨held, listed, migrated, resaved⟩ := sound.rewritten authentic rewritten
  refine ⟨held, listed, fun some_ slot named secret => ?_, resaved⟩
  rcases Bool.or_eq_true_iff.mp some_ with before | ok
  · exact migrated before slot named secret
  · by_cases none_ : state.saved slot = none
    · have empty : Held aead sha256Hex state.env slot (done.1.hashOf slot) (done.1.text slot) none := none_ ▸ held slot
      change readSlot aead sha256Hex state.env slot (done.1.hashOf slot) (done.1.text slot) ≠ some (secret, true)
      have same : done.1.text slot = "" := empty
      rw [same, readSlot_empty]
      exact nofun
    · exact (settled ok slot (sound.stored none_) named).ne secret

theorem Sound.configure (authentic : aead.Authentic) (sound : Sound aead sha256Hex state)
    (allowed : Allowed state (.configure later)) : Sound aead sha256Hex (step aead sha256Hex state (.configure later)) := by
  obtain ⟨migrated, turnstile, kept⟩ := allowed
  refine ⟨fun slot => ?_, sound.listed, nofun, nofun⟩
  by_cases named : slot = .turnstileSecretKey
  · subst named
    rcases turnstile with none_ | resaved
    · have held := sound.held .turnstileSecretKey
      change Held aead sha256Hex later _ _ _ (state.saved .turnstileSecretKey)
      rw [none_] at held ⊢
      exact held
    · exact (sound.held _).configure authentic (sound.resaved resaved) (kept _)
  · exact (sound.held slot).configure authentic (sound.migrated migrated slot named) (kept slot)

theorem Sound.step (authentic : aead.Authentic) (sound : Sound aead sha256Hex state) {event : Event}
    (allowed : Allowed state event) : Sound aead sha256Hex (step aead sha256Hex state event) := by
  cases event with
  | configure later => exact sound.configure authentic allowed
  | migrate attempt => exact sound.migrate authentic attempt
  | answer slot attempt => exact sound.rewritten authentic (answer_spec attempt slot state.store).1
  | request request attempt => exact sound.serve authentic attempt request

/-- Along every run from a new deployment, what was saved last in a slot is what the next call reads there. -/
theorem answer_along (authentic : aead.Authentic) {env : Env} {events : List Event}
    (along : Runs.Along (Secrets.step aead sha256Hex) Allowed (State.fresh env) events) :
    let state := Runs.run (Secrets.step aead sha256Hex) (State.fresh env) events
    ∀ slot secret, state.saved slot = some secret → ∀ attempt : Attempt, attempt.fails slot = false →
      (answer aead sha256Hex state.env attempt slot state.store).2 = some secret := by
  intro state slot secret saved attempt succeeds
  have sound : Sound aead sha256Hex state :=
    Runs.run_invariant (fun _ _ holds allowed => holds.step authentic allowed) (sound_fresh env) along
  have held := sound.held slot
  rw [saved] at held
  obtain ⟨needs, read⟩ := held.read authentic
  rw [(answer_spec attempt slot state.store).2 succeeds]
  exact congrArg _ read

/-- A token is saved under the old key, encrypted anew, and read under the new one. -/
def rotationEvents : List Event :=
  [.request (.setTelegramToken "1:a") someAttempt, .migrate someAttempt, .configure newKeys,
    .answer .alertTelegramBotToken someAttempt]

theorem primary_oldKeys (slot : Slot) : slot.scheme.primary oldKeys ∈ slot.scheme.materials newKeys := by
  have named : totp.primary oldKeys ∈ totp.materials newKeys := by decide
  cases slot with
  | credential subject => exact named
  | _ => decide

theorem along_rotationEvents :
    Runs.Along (step spelledOut id) Allowed (State.fresh oldKeys) rotationEvents := by
  have migrated : (Runs.run (step spelledOut id) (State.fresh oldKeys) (rotationEvents.take 2)).migrated = true := by
    decide +kernel
  exact ⟨trivial, trivial, ⟨migrated, .inl rfl, primary_oldKeys⟩, trivial, trivial⟩

theorem answer_along_rotation :
    let state := Runs.run (step spelledOut id) (State.fresh oldKeys) rotationEvents
    (answer spelledOut id state.env someAttempt .alertTelegramBotToken state.store).2 = some "1:a" :=
  answer_along authentic_spelledOut along_rotationEvents .alertTelegramBotToken "1:a" rfl someAttempt rfl

/-- No request saves the Turnstile secret. -/
def LeavesTurnstile (_ : State) : Event → Prop
  | .request (.saveTurnstileConfig _) _ => False
  | _ => True

/-- The Turnstile secret is encrypted, as it was before. -/
structure KeepsTurnstile (value : String) (store : Store) : Prop where
  text : store.text .turnstileSecretKey = value
  encrypted : isEncryptedSecret (trim value) = true

theorem KeepsTurnstile.set (kept : KeepsTurnstile value store) {slot : Slot} (other : slot ≠ .turnstileSecretKey)
    (text : String) : KeepsTurnstile value (store.set slot text) :=
  ⟨by rw [Store.text_set, if_neg (Ne.symm other), kept.text], kept.encrypted⟩

theorem KeepsTurnstile.save (kept : KeepsTurnstile value store) {slot : Slot} (other : slot ≠ .turnstileSecretKey)
    (attempt : Attempt) (secret : String) : KeepsTurnstile value (save aead env attempt slot secret store).1 := by
  unfold Secrets.save
  split
  · exact kept
  · split
    · exact kept
    · exact kept.set other _

theorem KeepsTurnstile.rewrite (kept : KeepsTurnstile value store) (aead : Aead) (sha256Hex : String → String)
    (env : Env) (attempt : Attempt) (slot : Slot) : KeepsTurnstile value
      (rewrite aead env attempt slot (store.migrationRead aead sha256Hex env slot) store).1 := by
  by_cases same : slot = .turnstileSecretKey
  · unfold Store.migrationRead Secrets.rewrite
    rw [if_pos same, same, kept.text, kept.encrypted]
    exact kept
  · unfold Secrets.rewrite
    split
    · exact kept
    · exact kept
    · split
      · exact kept
      · split
        · exact kept
        · exact kept.set same _

theorem KeepsTurnstile.migrateSlots (kept : KeepsTurnstile value store) (attempt : Attempt) (slots : List Slot) :
    KeepsTurnstile value (migrateSlots aead sha256Hex env attempt slots store).1 := by
  induction slots generalizing store with
  | nil => exact kept
  | cons slot rest ih =>
      unfold Secrets.migrateSlots
      split
      · exact ih kept
      · have next := kept.rewrite aead sha256Hex env attempt slot
        split
        next done =>
          rw [done] at next
          exact next
        next done =>
          rw [done] at next
          exact ih next

theorem KeepsTurnstile.migrateWith (kept : KeepsTurnstile value store) (attempt : Attempt) (scheme : Scheme)
    (slots : List Slot) : KeepsTurnstile value (migrateWith aead sha256Hex env attempt scheme slots store).1 := by
  unfold Secrets.migrateWith
  split
  · exact kept
  · exact kept.migrateSlots attempt slots

theorem KeepsTurnstile.migrateEach {list : List (Component × (Store → Store × Option Migrated))}
    (all : ∀ entry ∈ list, ∀ store, KeepsTurnstile value store → KeepsTurnstile value (entry.2 store).1)
    (kept : KeepsTurnstile value store) (report : MigrationReport) :
    KeepsTurnstile value (migrateEach list store report).1 := by
  induction list generalizing store report with
  | nil => exact kept
  | cons entry rest ih =>
      obtain ⟨first, others⟩ := List.forall_mem_cons.mp all
      have next := first store kept
      unfold Secrets.migrateEach
      split
      next done =>
        rw [done] at next
        exact ih others next _
      next done =>
        rw [done] at next
        exact ih others next _

theorem KeepsTurnstile.migrate (kept : KeepsTurnstile value store) (attempt : Attempt) :
    KeepsTurnstile value (migrateEncryptionMaterials aead sha256Hex env attempt store).1 := by
  unfold migrateEncryptionMaterials
  split
  · exact kept
  · refine KeepsTurnstile.migrateEach ?_ kept _
    unfold migrations
    simp only [List.forall_mem_cons, List.not_mem_nil, false_imp_iff, implies_true, and_true]
    refine ⟨fun store held => ?_, fun store held => ?_, fun store held => ?_, fun store held => ?_, fun store held => ?_⟩
    · exact held.migrateWith attempt totp [.totpSecret, .totpPendingSecret]
    · exact held.migrateWith attempt totp (store.subjects.map .credential)
    · exact held.migrateWith attempt alert [.alertTelegramBotToken, .alertResendApiKey, .alertChannelSecrets]
    · exact held.migrateWith attempt nqImageHost [.nqImageHostToken]
    · exact held.migrateSlots attempt [.turnstileSecretKey]

theorem KeepsTurnstile.reread (kept : KeepsTurnstile value store) (attempt : Attempt) {slot : Slot}
    (other : slot ≠ .turnstileSecretKey) (failed : Option String) (found : Option (String × Bool)) :
    KeepsTurnstile value (reread aead env attempt slot failed found store).1 := by
  unfold Secrets.reread
  split
  · exact kept
  · split
    · split
      · exact kept
      · split
        · exact kept
        · exact kept.set other _
    · exact kept

theorem KeepsTurnstile.answer (kept : KeepsTurnstile value store) (attempt : Attempt) (slot : Slot) :
    KeepsTurnstile value (answer aead sha256Hex env attempt slot store).1 := by
  cases slot with
  | totpPendingSecret | turnstileSecretKey => exact kept
  | totpSecret => exact kept.reread attempt (by simp) _ _
  | alertTelegramBotToken => exact kept.reread attempt (by simp) _ _
  | alertResendApiKey => exact kept.reread attempt (by simp) _ _
  | alertChannelSecrets => exact kept.reread attempt (by simp) _ _
  | nqImageHostToken => exact kept.reread attempt (by simp) _ _
  | credential subject => exact kept.reread attempt (by simp) _ _

theorem KeepsTurnstile.keep {done : Store × Bool} (kept : KeepsTurnstile value done.1) (slot : Slot) (plain : String) :
    KeepsTurnstile value (state.keep slot plain done).store := by
  unfold State.keep
  split
  · exact kept
  · exact kept

theorem KeepsTurnstile.clear (kept : KeepsTurnstile value state.store) (slot : Slot)
    (other : slot ≠ .turnstileSecretKey) (attempt : Attempt) :
    KeepsTurnstile value (state.clear slot attempt).store := by
  unfold State.clear
  split
  · exact kept
  · exact kept.set other _

theorem KeepsTurnstile.saveTrimmed (kept : KeepsTurnstile value store) (attempt : Attempt) {slot : Slot}
    (other : slot ≠ .turnstileSecretKey) (plain : String) :
    KeepsTurnstile value (saveTrimmed aead env attempt slot plain store).1 := by
  unfold Secrets.saveTrimmed
  split
  · exact kept
  · exact kept.save other attempt _

theorem KeepsTurnstile.verifyTOTP (kept : KeepsTurnstile value store) (attempt : Attempt) :
    KeepsTurnstile value (verifyTOTP aead env attempt store).1 := by
  cases done : Secrets.verifyTOTP aead env attempt store with
  | mk next moved =>
      cases moved with
      | none => exact verifyTOTP_none done ▸ kept
      | some secret =>
          obtain ⟨-, -, rfl⟩ := verifyTOTP_some done
          dsimp only
          split
          · exact kept.set (by simp) _
          · exact (kept.set (by simp) _).set (by simp) _

theorem KeepsTurnstile.serve (kept : KeepsTurnstile value state.store) (attempt : Attempt) {request : Request}
    (leaves : LeavesTurnstile state (.request request attempt)) :
    KeepsTurnstile value (serve aead sha256Hex attempt state request).store := by
  cases request with
  | setupTOTP secret =>
      refine KeepsTurnstile.keep ?_ .totpPendingSecret secret
      unfold Secrets.setupTOTP
      split
      · exact kept
      · exact kept.save (by simp) attempt secret
  | verifyTOTP =>
      have moved : KeepsTurnstile value (Secrets.verifyTOTP aead state.env attempt state.store).1 :=
        kept.verifyTOTP attempt
      change KeepsTurnstile value (state.activate aead attempt).store
      unfold State.activate
      split
      next done =>
        rw [done] at moved
        exact moved
      next done =>
        rw [done] at moved
        exact moved
  | disableTOTP =>
      have cleared := (kept.clear .totpSecret (by simp) attempt).clear .totpPendingSecret (by simp) attempt
      change KeepsTurnstile value (state.disableTOTP aead attempt).store
      unfold State.disableTOTP
      dsimp only
      generalize (if state.store.text .totpSecret = "" then state.store.text .totpPendingSecret
        else state.store.text .totpSecret) = stored
      split
      · exact kept
      · exact cleared
  | setTelegramToken token => exact (kept.saveTrimmed attempt (by simp) token).keep _ _
  | clearTelegramToken => exact kept.clear .alertTelegramBotToken (by simp) attempt
  | setResendKey key => exact (kept.saveTrimmed attempt (by simp) key).keep _ _
  | clearResendKey => exact kept.clear .alertResendApiKey (by simp) attempt
  | updateChannelSecrets text => exact (kept.save (by simp) attempt text).keep _ _
  | saveTurnstileConfig secret => exact leaves.elim
  | storeCredential subject token =>
      refine KeepsTurnstile.keep ?_ (.credential subject) token
      have saved : KeepsTurnstile value
          (Secrets.save aead state.env attempt (.credential subject) token state.store).1 :=
        kept.save (by simp) attempt token
      unfold Secrets.storeCredential
      split
      next done =>
        rw [done] at saved
        exact saved
      next done =>
        rw [done] at saved
        exact ⟨saved.text, saved.encrypted⟩

theorem KeepsTurnstile.step (kept : KeepsTurnstile value state.store) {event : Event}
    (leaves : LeavesTurnstile state event) : KeepsTurnstile value (step aead sha256Hex state event).store := by
  cases event with
  | configure later => exact kept
  | migrate attempt => exact kept.migrate attempt
  | answer slot attempt => exact kept.answer attempt slot
  | request request attempt => exact kept.serve attempt leaves

/-- A Turnstile secret can be read as long as the material of its save is among those that are tried: no migration
encrypts it anew. -/
theorem getTurnstileSecret_along (authentic : aead.Authentic) {state : State} {attempt : Attempt} {secret : String}
    (saved : (saveTrimmed aead state.env attempt .turnstileSecretKey secret state.store).2 = true) {events : List Event}
    (along : Runs.Along (Secrets.step aead sha256Hex) LeavesTurnstile
      (serve aead sha256Hex attempt state (.saveTurnstileConfig secret)) events) :
    let last := Runs.run (Secrets.step aead sha256Hex)
      (serve aead sha256Hex attempt state (.saveTurnstileConfig secret)) events
    getTurnstileSecret aead last.env last.store =
      if totp.primary state.env ∈ totp.materials last.env then some (trim secret) else none := by
  intro last
  let value := envelope aead totp (totp.primary state.env) (attempt.iv .turnstileSecretKey) (trim secret)
  obtain ⟨some_, stored⟩ : trim secret ≠ "" ∧ saveTrimmed aead state.env attempt .turnstileSecretKey secret state.store =
    (state.store.set .turnstileSecretKey value, true) := saveTrimmed_spec saved
  have first : KeepsTurnstile value (serve aead sha256Hex attempt state (.saveTurnstileConfig secret)).store := by
    refine KeepsTurnstile.keep ?_ .turnstileSecretKey (trim secret)
    rw [stored]
    refine ⟨by rw [Store.text_set, if_pos rfl], ?_⟩
    rw [trim_envelope]
    exact isEncryptedSecret_envelope _ _ _
  let inv (state : State) := KeepsTurnstile value state.store
  have kept : inv last := by
    refine Runs.run_invariant ?_ first along
    intro state event held leaves
    exact held.step leaves
  have fits : Slot.Fits sha256Hex "" (trim secret) .turnstileSecretKey := ⟨trim_trim secret, some_⟩
  have read : readSlot aead sha256Hex last.env .turnstileSecretKey "" value = _ :=
    readSlot_envelope authentic fits _ _
  unfold getTurnstileSecret
  rw [kept.text]
  change (readSlot aead sha256Hex last.env .turnstileSecretKey "" value).map Prod.fst = _
  rw [read]
  change (if totp.primary state.env ∈ totp.materials last.env then _ else none).map Prod.fst = _
  split
  · rfl
  · rfl

/-- The Turnstile secret is saved under the old key, which is then no longer tried, though a migration has run. -/
def lostEvents : List Event := [.migrate someAttempt, .configure { totpEncryptionKey := "new" }]

theorem getTurnstileSecret_along_lost :
    let first := serve spelledOut id someAttempt (State.fresh oldKeys) (.saveTurnstileConfig "0x4")
    let last := Runs.run (step spelledOut id) first lostEvents
    getTurnstileSecret spelledOut last.env last.store = none := by
  have saved : (saveTrimmed spelledOut oldKeys someAttempt .turnstileSecretKey "0x4" (State.fresh oldKeys).store).2 =
      true := by decide +kernel
  have along : Runs.Along (step spelledOut id) LeavesTurnstile
      (serve spelledOut id someAttempt (State.fresh oldKeys) (.saveTurnstileConfig "0x4")) lostEvents :=
    ⟨trivial, trivial, trivial⟩
  exact (getTurnstileSecret_along authentic_spelledOut saved along).trans (if_neg (by decide))

end Runs

end NieSla.Secrets
