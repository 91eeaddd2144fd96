import NieSla.Alerts.WebhookHeaders
import NieSla.Lib.Fallible

/-! The headers of the webhook as a table from names to secrets, and what a request does to the table. -/
namespace NieSla.Alerts.Webhook

open JsonText

abbrev Table := Text → Option Text

/-- A name that is sent with the mask keeps its secret, a name that is not sent is removed. -/
def Edited (sent : List (Text × Text)) (table : Table) : Table := fun name =>
  match get? name sent with
  | none => none
  | some value => if value = webhookHeaderMask then table name else some value

/-- Headers as the parser leaves them. -/
structure Clean (headers : List (Text × Text)) : Prop where
  distinct : (keys headers).Nodup
  names : ∀ entry ∈ headers, trim entry.1 = entry.1 ∧ ¬ (entry.1 = [] ∨ entry.1.any isLineBreak = true) ∧
    entry.1 ≠ units "__proto__"
  values : ∀ entry ∈ headers, cleanValue entry.2 = entry.2

section Clean

variable {headers out : List (Text × Text)} {name value : Text}

theorem mem_put {entry : Text × Text} (member : entry ∈ put name value headers) :
    entry = (name, value) ∨ entry ∈ headers := by
  unfold put at member
  split at member
  · obtain ⟨old, inside, rfl⟩ := List.mem_map.mp member
    split
    · exact .inl rfl
    · exact .inr inside
  · exact List.mem_cons.mp ((insertKey_perm _ _ _).mem_iff.mp member)

theorem clean_nil : Clean [] := ⟨List.nodup_nil, by simp, by simp⟩

theorem Clean.put (clean : Clean headers) (trimmed : trim name = name)
    (solid : ¬ (name = [] ∨ name.any isLineBreak = true)) (own : name ≠ units "__proto__")
    (plain : cleanValue value = value) : Clean (put name value headers) := by
  refine ⟨nodup_keys_put value clean.distinct, fun entry member => ?_, fun entry member => ?_⟩
  · rcases mem_put member with rfl | old
    · exact ⟨trimmed, solid, own⟩
    · exact clean.names entry old
  · rcases mem_put member with rfl | old
    · exact plain
    · exact clean.values entry old

theorem cleanValue_cleanValue (value : Text) : cleanValue (cleanValue value) = cleanValue value := by
  unfold cleanValue
  rw [List.map_map]
  refine List.map_congr_left fun unit _ => ?_
  by_cases breaks : isLineBreak unit = true
  · simp only [Function.comp_apply, breaks, if_true]
    rfl
  · simp only [Function.comp_apply, breaks, Bool.false_eq_true, if_false]

variable {numberText : Text → Text}

/-- The loop adds clean headers only, and at most one for each entry. -/
theorem clean_cleanHeaders {entries : List (Text × Json)} (clean : Clean out)
    (made : cleanHeaders numberText entries out = some headers) :
    Clean headers ∧ headers.length ≤ out.length + entries.length := by
  induction entries generalizing out with
  | nil =>
      cases made
      exact ⟨clean, le_refl _⟩
  | cons entry rest ih =>
      simp only [cleanHeaders] at made
      split at made
      · obtain ⟨kept, few⟩ := ih clean made
        exact ⟨kept, few.trans (by simp only [List.length_cons]; omega)⟩
      · rename_i solid
        split at made
        · cases made
        · rename_i value _
          have trimmed : trim (trim entry.1) = trim entry.1 := Trim.trimBy_trimBy isWhite entry.1
          have assigned : Clean (assign (trim entry.1) (cleanValue value) out) ∧
              (assign (trim entry.1) (cleanValue value) out).length ≤ out.length + 1 := by
            unfold assign
            split
            · exact ⟨clean, Nat.le_succ _⟩
            · rename_i own
              exact ⟨clean.put trimmed solid own (cleanValue_cleanValue value), length_put_le _ _ _⟩
          obtain ⟨kept, few⟩ := ih assigned.1 made
          exact ⟨kept, few.trans (by simp only [List.length_cons]; omega)⟩

theorem clean_parseWebhookHeaders (raw : Text) :
    Clean (parseWebhookHeaders numberText raw) ∧ (parseWebhookHeaders numberText raw).length ≤ 20 := by
  unfold parseWebhookHeaders
  split
  · rename_i entries _
    cases made : cleanHeaders numberText (entries.take 20) [] with
    | none => exact ⟨clean_nil, Nat.zero_le _⟩
    | some headers =>
        obtain ⟨clean, few⟩ := clean_cleanHeaders clean_nil made
        refine ⟨clean, few.trans ?_⟩
        simp only [List.length_nil, List.length_take]
        omega
  · exact ⟨clean_nil, Nat.zero_le _⟩

/-- The loop leaves clean headers as they are. -/
theorem cleanHeaders_textEntries {headers : List (Text × Text)} (names : ∀ entry ∈ headers,
      trim entry.1 = entry.1 ∧ ¬ (entry.1 = [] ∨ entry.1.any isLineBreak = true) ∧ entry.1 ≠ units "__proto__")
    (values : ∀ entry ∈ headers, cleanValue entry.2 = entry.2) (out : List (Text × Text)) :
    cleanHeaders numberText (textEntries headers) out =
      some (headers.foldl (fun entries member => put member.1 member.2 entries) out) := by
  induction headers generalizing out with
  | nil => rfl
  | cons entry rest ih =>
      obtain ⟨⟨trimmed, solid, own⟩, otherNames⟩ := List.forall_mem_cons.mp names
      obtain ⟨plain, otherValues⟩ := List.forall_mem_cons.mp values
      simp only [textEntries, mapValues, List.map_cons, cleanHeaders, trimmed, if_neg solid, textOf, assign,
        if_neg own, plain, List.foldl_cons]
      exact ih otherNames otherValues _

theorem Clean.perm (clean : Clean headers) (same : headers.Perm out) : Clean out :=
  ⟨(same.map Prod.fst).nodup_iff.mp clean.distinct, fun entry member => clean.names entry (same.mem_iff.mpr member),
    fun entry member => clean.values entry (same.mem_iff.mpr member)⟩

theorem parseWebhookHeaders_stringify (clean : Clean headers) (few : headers.length ≤ 20) :
    parseWebhookHeaders numberText (stringify headers) = ofMembers (ofMembers headers) := by
  have ordered := ofMembers_perm clean.distinct
  have cleanOrdered := clean.perm ordered.symm
  have whole : (textEntries (ofMembers headers)).take 20 = textEntries (ofMembers headers) := by
    refine List.take_of_length_le ?_
    rw [textEntries, mapValues, List.length_map, ordered.length_eq]
    exact few
  unfold parseWebhookHeaders
  rw [if_neg (show stringify headers ≠ [] from List.cons_ne_nil _ _), parse_stringify]
  simp only [whole, cleanHeaders_textEntries cleanOrdered.names cleanOrdered.values, Option.getD_some]
  rfl

/-- Clean headers are read back. -/
theorem get?_parseWebhookHeaders (clean : Clean headers) (few : headers.length ≤ 20) (name : Text) :
    get? name (parseWebhookHeaders numberText (stringify headers)) = get? name headers := by
  rw [parseWebhookHeaders_stringify clean few, get?_ofMembers (nodup_keys_ofMembers headers),
    get?_ofMembers clean.distinct]

theorem get?_mergeEntry (previous merged : List (Text × Text)) (entry : Text × Text) (name : Text) :
    get? name (mergeEntry previous merged entry) =
      if entry.1 = name then
        if entry.2 = webhookHeaderMask then (get? name previous).or (get? name merged) else some entry.2
      else get? name merged := by
  unfold mergeEntry
  by_cases same : entry.1 = name
  · subst same
    rw [if_pos rfl]
    split
    · cases known : get? entry.1 previous with
      | none => rfl
      | some value =>
          dsimp only
          rw [get?_put, if_pos rfl]
          rfl
    · rw [get?_put, if_pos rfl]
  · rw [if_neg same]
    split
    · split
      · rw [get?_put, if_neg same]
      · rfl
    · rw [get?_put, if_neg same]

theorem get?_foldl_mergeEntry (previous : List (Text × Text)) {sent : List (Text × Text)}
    (distinct : (keys sent).Nodup) (merged : List (Text × Text)) (name : Text) :
    get? name (sent.foldl (mergeEntry previous) merged) =
      match get? name sent with
      | none => get? name merged
      | some value =>
          if value = webhookHeaderMask then (get? name previous).or (get? name merged) else some value := by
  induction sent generalizing merged with
  | nil => rfl
  | cons entry rest ih =>
      obtain ⟨fresh, others⟩ := List.nodup_cons.mp distinct
      rw [List.foldl_cons, ih others, get?_cons, get?_mergeEntry]
      by_cases same : entry.1 = name
      · subst same
        rw [get?_eq_none.mpr fresh, if_pos rfl, if_pos rfl]
      · rw [if_neg same, if_neg same]

/-- The merged headers are those of the edited table. -/
theorem get?_mergedHeaders (raw previousRaw name : Text) :
    get? name (mergedHeaders numberText raw previousRaw) =
      Edited (parseWebhookHeaders numberText raw)
        (fun name => get? name (parseWebhookHeaders numberText previousRaw)) name := by
  have distinct : (keys (parseWebhookHeaders numberText raw)).Nodup := (clean_parseWebhookHeaders raw).1.distinct
  rw [mergedHeaders, get?_foldl_mergeEntry _ distinct]
  simp only [get?_nil, Option.or_none]
  rfl

theorem clean_mergeEntry {previous merged : List (Text × Text)} (cleanPrevious : Clean previous)
    (clean : Clean merged) {sent : List (Text × Text)} (cleanSent : Clean sent) {entry : Text × Text}
    (member : entry ∈ sent) :
    Clean (mergeEntry previous merged entry) ∧ (mergeEntry previous merged entry).length ≤ merged.length + 1 := by
  obtain ⟨trimmed, solid, own⟩ := cleanSent.names entry member
  unfold mergeEntry
  split
  · split
    · rename_i value known
      have plain := cleanPrevious.values _ (mem_of_get? known)
      exact ⟨clean.put trimmed solid own plain, length_put_le _ _ _⟩
    · exact ⟨clean, Nat.le_succ _⟩
  · exact ⟨clean.put trimmed solid own (cleanSent.values entry member), length_put_le _ _ _⟩

theorem clean_foldl_mergeEntry {previous sent : List (Text × Text)} (cleanPrevious : Clean previous)
    (cleanSent : Clean sent) {entries merged : List (Text × Text)} (inside : ∀ entry ∈ entries, entry ∈ sent)
    (clean : Clean merged) :
    Clean (entries.foldl (mergeEntry previous) merged) ∧
      (entries.foldl (mergeEntry previous) merged).length ≤ merged.length + entries.length := by
  induction entries generalizing merged with
  | nil => exact ⟨clean, le_refl _⟩
  | cons entry rest ih =>
      obtain ⟨here, others⟩ := List.forall_mem_cons.mp inside
      obtain ⟨next, longer⟩ := clean_mergeEntry cleanPrevious clean cleanSent here
      obtain ⟨last, length⟩ := ih others next
      refine ⟨last, length.trans ?_⟩
      simp only [List.length_cons]
      omega

theorem clean_mergedHeaders (raw previousRaw : Text) :
    Clean (mergedHeaders numberText raw previousRaw) ∧ (mergedHeaders numberText raw previousRaw).length ≤ 20 := by
  obtain ⟨cleanSent, few⟩ : Clean (parseWebhookHeaders numberText raw) ∧
      (parseWebhookHeaders numberText raw).length ≤ 20 := clean_parseWebhookHeaders raw
  obtain ⟨clean, length⟩ := clean_foldl_mergeEntry (clean_parseWebhookHeaders previousRaw).1 cleanSent
    (fun _ member => member) clean_nil
  exact ⟨clean, length.trans (by simpa using few)⟩

end Clean

/-! The table of the stored secrets. -/

section Secrets

variable (numberText : Text → Text)

def headersText (secrets : Secrets) : Text := (get? webhookHeadersKey secrets).getD []

def headersOf (secrets : Secrets) : Table := fun name =>
  get? name (parseWebhookHeaders numberText (headersText secrets))

/-- What an edit asks for. -/
def HeaderEdit.intended : HeaderEdit → Table → Table
  | .leave, table => table
  | .clear, _ => fun _ => none
  | .send raw, table => Edited (parseWebhookHeaders numberText raw) table

/-- A request that is refused asks for nothing. -/
def intended (table : Table) (body : List (Text × Json)) : Table :=
  match fieldChanges numberText body channelSecretFields, headerEdit numberText body with
  | .ok _, .ok edit => edit.intended numberText table
  | _, _ => table

/-- The headers that are sent are not cut. -/
def HeaderEdit.Fits (secrets : Secrets) : HeaderEdit → Prop
  | .send raw => (mergeMaskedWebhookHeaders numberText raw (headersText secrets)).length ≤ 4000
  | _ => True

variable {numberText}

theorem headersOf_merged {secrets : Secrets} {raw previousRaw : Text}
    (stored : get? webhookHeadersKey secrets = some (mergeMaskedWebhookHeaders numberText raw previousRaw)) :
    headersOf numberText secrets = Edited (parseWebhookHeaders numberText raw)
      (fun name => get? name (parseWebhookHeaders numberText previousRaw)) := by
  funext name
  obtain ⟨clean, few⟩ : Clean (mergedHeaders numberText raw previousRaw) ∧
      (mergedHeaders numberText raw previousRaw).length ≤ 20 := clean_mergedHeaders raw previousRaw
  rw [headersOf, headersText, stored, Option.getD_some, mergeMaskedWebhookHeaders,
    get?_parseWebhookHeaders clean few, get?_mergedHeaders]

theorem headersOf_of_absent {secrets : Secrets} (absent : get? webhookHeadersKey secrets = none) :
    headersOf numberText secrets = fun _ => none := by
  funext name
  rw [headersOf, headersText, absent]
  rfl

theorem get?_send {state : Secrets × Bool} {raw : Text}
    (fits : (HeaderEdit.send raw).Fits numberText state.1) :
    get? webhookHeadersKey (HeaderEdit.apply numberText state (.send raw)).1 =
      some (mergeMaskedWebhookHeaders numberText raw (headersText state.1)) := by
  simp only [HeaderEdit.apply]
  split
  · rename_i same
    exact same
  · rw [get?_put, if_pos rfl]
    exact congrArg some (List.take_of_length_le fits)

/-- An edit that fits leaves the table that it asks for. -/
theorem headersOf_apply {state : Secrets × Bool} {edit : HeaderEdit}
    (fits : edit.Fits numberText state.1) :
    headersOf numberText (edit.apply numberText state).1 = edit.intended numberText (headersOf numberText state.1) := by
  cases edit with
  | leave => rfl
  | clear =>
      refine headersOf_of_absent ?_
      simp only [HeaderEdit.apply]
      split
      · rw [get?_erase, if_pos rfl]
      · rename_i absent
        exact get?_eq_none.mpr absent
  | send raw => exact headersOf_merged (get?_send fits)

theorem get?_fieldChange_apply {field : Text} (other : field ≠ webhookHeadersKey) (state : Secrets × Bool)
    (change : FieldChange) :
    get? webhookHeadersKey (change.apply field state).1 = get? webhookHeadersKey state.1 := by
  cases change with
  | leave => rfl
  | clear =>
      simp only [FieldChange.apply]
      split
      · rw [get?_erase, if_neg other]
      · rfl
  | store value =>
      simp only [FieldChange.apply]
      split
      · rfl
      · rw [get?_put, if_neg other]

theorem fields_of_fieldChanges {body : List (Text × Json)} {fields : List Text}
    {changes : List (Text × FieldChange)} (read : fieldChanges numberText body fields = .ok changes) :
    changes.map Prod.fst = fields := by
  induction fields generalizing changes with
  | nil =>
      cases read
      rfl
  | cons field rest ih =>
      obtain ⟨change, -, read⟩ := Fallible.bind_eq_ok.mp read
      obtain ⟨others, tail, made⟩ := Fallible.bind_eq_ok.mp read
      cases made
      rw [List.map_cons, ih tail]

/-- The changes of the fields leave the headers alone. -/
theorem get?_fieldChanges {changes : List (Text × FieldChange)}
    (fields : ∀ change ∈ changes, change.1 ≠ webhookHeadersKey) (state : Secrets × Bool) :
    get? webhookHeadersKey (changes.foldl (fun state change => change.2.apply change.1 state) state).1 =
      get? webhookHeadersKey state.1 := by
  induction changes generalizing state with
  | nil => rfl
  | cons change rest ih =>
      obtain ⟨first, others⟩ := List.forall_mem_cons.mp fields
      rw [List.foldl_cons, ih others, get?_fieldChange_apply first]

theorem nodup_fieldChange_apply {field : Text} {state : Secrets × Bool} (distinct : (keys state.1).Nodup)
    (change : FieldChange) : (keys (change.apply field state).1).Nodup := by
  cases change with
  | leave => exact distinct
  | clear =>
      simp only [FieldChange.apply]
      split
      · exact distinct.sublist (List.filter_sublist.map Prod.fst)
      · exact distinct
  | store value =>
      simp only [FieldChange.apply]
      split
      · exact distinct
      · exact nodup_keys_put _ distinct

theorem nodup_fieldChanges {changes : List (Text × FieldChange)} {state : Secrets × Bool}
    (distinct : (keys state.1).Nodup) :
    (keys (changes.foldl (fun state change => change.2.apply change.1 state) state).1).Nodup := by
  induction changes generalizing state with
  | nil => exact distinct
  | cons change rest ih => exact ih (nodup_fieldChange_apply distinct change.2)

theorem nodup_headerEdit_apply {state : Secrets × Bool} (distinct : (keys state.1).Nodup) (edit : HeaderEdit) :
    (keys (edit.apply numberText state).1).Nodup := by
  cases edit with
  | leave => exact distinct
  | clear =>
      simp only [HeaderEdit.apply]
      split
      · exact distinct.sublist (List.filter_sublist.map Prod.fst)
      · exact distinct
  | send raw =>
      simp only [HeaderEdit.apply]
      split
      · exact distinct
      · exact nodup_keys_put _ distinct

/-- Without a change the secrets are as they were. -/
theorem fieldChange_apply_eq {field : Text} {state : Secrets × Bool} {change : FieldChange}
    (unchanged : (change.apply field state).2 = false) : change.apply field state = state := by
  cases change with
  | leave => rfl
  | clear =>
      simp only [FieldChange.apply] at unchanged ⊢
      split at unchanged
      · cases unchanged
      · rename_i absent
        exact if_neg absent
  | store value =>
      simp only [FieldChange.apply] at unchanged ⊢
      split at unchanged
      · rename_i same
        exact if_pos same
      · cases unchanged

theorem fieldChanges_eq {changes : List (Text × FieldChange)} {state : Secrets × Bool}
    (unchanged : (changes.foldl (fun state change => change.2.apply change.1 state) state).2 = false) :
    changes.foldl (fun state change => change.2.apply change.1 state) state = state := by
  induction changes generalizing state with
  | nil => rfl
  | cons change rest ih =>
      have later := ih unchanged
      rw [List.foldl_cons] at unchanged ⊢
      rw [later] at unchanged ⊢
      exact fieldChange_apply_eq unchanged

theorem headerEdit_apply_eq {state : Secrets × Bool} {edit : HeaderEdit}
    (unchanged : (edit.apply numberText state).2 = false) : edit.apply numberText state = state := by
  cases edit with
  | leave => rfl
  | clear =>
      simp only [HeaderEdit.apply] at unchanged ⊢
      split at unchanged
      · cases unchanged
      · rename_i absent
        exact if_neg absent
  | send raw =>
      simp only [HeaderEdit.apply] at unchanged ⊢
      split at unchanged
      · rename_i same
        exact if_pos same
      · cases unchanged

end Secrets

/-! The encrypted store. -/

section Store

variable {σ : Type*} (vault : Vault σ) (numberText : Text → Text)

/-- The headers that are stored. -/
def tableOf (stored : Option (Stored σ)) : Table := headersOf numberText (readChannelSecrets vault stored)

/-- The headers that a request sends are not cut. -/
def RequestFits (stored : Option (Stored σ)) (body : List (Text × Json)) : Prop :=
  ∀ edit, headerEdit numberText body = .ok edit → edit.Fits numberText (readChannelSecrets vault stored)

theorem textsIn_textEntries (entries : List (Text × Text)) : textsIn (textEntries entries) = entries := by
  induction entries with
  | nil => rfl
  | cons entry rest ih => exact congrArg (entry :: ·) ih

theorem keys_textsIn (entries : List (Text × Json)) : (keys (textsIn entries)).Sublist (keys entries) := by
  induction entries with
  | nil => exact List.Sublist.slnil
  | cons entry rest ih =>
      obtain ⟨key, value⟩ := entry
      cases value with
      | string => exact ih.cons_cons _
      | null | bool | number | array | object => exact ih.cons _

theorem nodup_readChannelSecrets (stored : Option (Stored σ)) :
    (keys (readChannelSecrets vault stored)).Nodup := by
  unfold readChannelSecrets
  split
  · rename_i entries read
    obtain ⟨text, -, read⟩ := Option.bind_eq_some_iff.mp read
    exact (nodup_keys_of_parse read).sublist (keys_textsIn entries)
  · exact List.nodup_nil

theorem get?_readChannelSecrets {secrets : Secrets} (distinct : (keys secrets).Nodup) (key : Text) :
    get? key (readChannelSecrets vault (some (.sealed (vault.encrypt (stringify secrets))))) =
      get? key secrets := by
  have read : readChannelSecrets vault (some (.sealed (vault.encrypt (stringify secrets)))) =
      ofMembers secrets := by
    unfold readChannelSecrets
    simp only [Option.bind_some, Stored.text, vault.decrypt_encrypt, parse_stringify, textsIn_textEntries]
  rw [read, get?_ofMembers distinct]

/-- The secrets after the changes of the fields. -/
def fieldsApplied (stored : Option (Stored σ)) (changes : List (Text × FieldChange)) : Secrets × Bool :=
  changes.foldl (fun state change => change.2.apply change.1 state) (readChannelSecrets vault stored, false)

variable {vault numberText} {stored : Option (Stored σ)} {body : List (Text × Json)} {after : Secrets × Bool}

theorem of_updateChannelSecrets
    (accepted : updateChannelSecrets numberText body (readChannelSecrets vault stored) = .ok after) :
    ∃ changes edit, fieldChanges numberText body channelSecretFields = .ok changes ∧
      headerEdit numberText body = .ok edit ∧ after = edit.apply numberText (fieldsApplied vault stored changes) := by
  obtain ⟨changes, fields, read⟩ := Fallible.bind_eq_ok.mp accepted
  obtain ⟨edit, header, made⟩ := Fallible.bind_eq_ok.mp read
  exact ⟨changes, edit, fields, header, (Except.ok.inj made).symm⟩

/-- What a request that is accepted stores is what it has made of the secrets. -/
theorem get?_request
    (accepted : updateChannelSecrets numberText body (readChannelSecrets vault stored) = .ok after) (key : Text) :
    get? key (readChannelSecrets vault (request vault numberText stored body)) = get? key after.1 := by
  obtain ⟨changes, edit, -, -, made⟩ := of_updateChannelSecrets accepted
  unfold request
  rw [accepted]
  obtain ⟨secrets, changed⟩ := after
  cases changed with
  | true =>
      have distinct : (keys (edit.apply numberText (fieldsApplied vault stored changes)).1).Nodup :=
        nodup_headerEdit_apply (nodup_fieldChanges (nodup_readChannelSecrets vault stored)) edit
      rw [← made] at distinct
      exact get?_readChannelSecrets vault distinct key
  | false =>
      have last : (edit.apply numberText (fieldsApplied vault stored changes)).2 = false := by rw [← made]
      rw [headerEdit_apply_eq last] at made last
      rw [fieldsApplied, fieldChanges_eq last] at made
      cases made
      rfl

theorem headersText_fieldsApplied {changes : List (Text × FieldChange)}
    (read : fieldChanges numberText body channelSecretFields = .ok changes) :
    headersText (fieldsApplied vault stored changes).1 = headersText (readChannelSecrets vault stored) := by
  have other : ∀ field ∈ channelSecretFields, field ≠ webhookHeadersKey := by decide
  have fields : ∀ change ∈ changes, change.1 ≠ webhookHeadersKey := by
    intro change member
    apply other
    rw [← fields_of_fieldChanges read]
    exact List.mem_map_of_mem member
  rw [headersText, fieldsApplied, get?_fieldChanges fields]
  rfl

theorem headersOf_congr {first second : Secrets} (same : headersText first = headersText second) :
    headersOf numberText first = headersOf numberText second := by
  unfold headersOf
  rw [same]

theorem fits_congr {first second : Secrets} (same : headersText first = headersText second) (edit : HeaderEdit) :
    edit.Fits numberText first ↔ edit.Fits numberText second := by
  cases edit with
  | leave | clear => exact Iff.rfl
  | send raw =>
      simp only [HeaderEdit.Fits]
      rw [same]

/-- A request that is accepted makes its edit of the table. -/
theorem tableOf_of_accepted {changes : List (Text × FieldChange)} {edit : HeaderEdit}
    (fields : fieldChanges numberText body channelSecretFields = .ok changes)
    (fits : edit.Fits numberText (readChannelSecrets vault stored))
    (accepted : updateChannelSecrets numberText body (readChannelSecrets vault stored) =
      .ok (edit.apply numberText (fieldsApplied vault stored changes))) :
    tableOf vault numberText (request vault numberText stored body) =
      edit.intended numberText (tableOf vault numberText stored) := by
  have same : headersText (fieldsApplied vault stored changes).1 =
      headersText (readChannelSecrets vault stored) := headersText_fieldsApplied fields
  have text : headersText (readChannelSecrets vault (request vault numberText stored body)) =
      headersText (edit.apply numberText (fieldsApplied vault stored changes)).1 := by
    rw [headersText, headersText, get?_request accepted]
  rw [tableOf, headersOf_congr text, headersOf_apply ((fits_congr same edit).mpr fits), headersOf_congr same]
  rfl

/-- A request that fits leaves the table that it asks for. -/
theorem tableOf_request (fits : RequestFits vault numberText stored body) :
    tableOf vault numberText (request vault numberText stored body) =
      intended numberText (tableOf vault numberText stored) body := by
  unfold intended
  cases fields : fieldChanges numberText body channelSecretFields with
  | error failure =>
      have refused : updateChannelSecrets numberText body (readChannelSecrets vault stored) = .error failure := by
        rw [updateChannelSecrets, fields]
        rfl
      simp only [request, refused]
  | ok changes =>
      cases header : headerEdit numberText body with
      | error failure =>
          have refused : updateChannelSecrets numberText body (readChannelSecrets vault stored) =
              .error failure := by
            rw [updateChannelSecrets, fields, header]
            rfl
          simp only [request, refused]
      | ok edit =>
          refine tableOf_of_accepted fields (fits edit header) ?_
          rw [updateChannelSecrets, fields, header]
          rfl

/-- The text that is stored for headers that are sent and fit is the merged one. -/
theorem stored_of_send {raw : Text} {changes : List (Text × FieldChange)}
    (fields : fieldChanges numberText body channelSecretFields = .ok changes)
    (header : headerEdit numberText body = .ok (.send raw))
    (fits : RequestFits vault numberText stored body) :
    get? webhookHeadersKey (readChannelSecrets vault (request vault numberText stored body)) =
      some (mergeMaskedWebhookHeaders numberText raw (headersText (readChannelSecrets vault stored))) := by
  have accepted : updateChannelSecrets numberText body (readChannelSecrets vault stored) =
      .ok (HeaderEdit.apply numberText (fieldsApplied vault stored changes) (.send raw)) := by
    rw [updateChannelSecrets, fields, header]
    rfl
  have same : headersText (fieldsApplied vault stored changes).1 =
      headersText (readChannelSecrets vault stored) := headersText_fieldsApplied fields
  rw [get?_request accepted, get?_send ((fits_congr same _).mpr (fits _ header)), same]

/-- The headers that are sent and fit are stored as an object that holds the edited table. -/
theorem parse_of_send {raw : Text} {changes : List (Text × FieldChange)}
    (fields : fieldChanges numberText body channelSecretFields = .ok changes)
    (header : headerEdit numberText body = .ok (.send raw))
    (fits : RequestFits vault numberText stored body) :
    ∃ text entries, get? webhookHeadersKey (readChannelSecrets vault (request vault numberText stored body)) =
        some text ∧ parse text = some (.object entries) ∧
      ∀ name, get? name entries = (Edited (parseWebhookHeaders numberText raw)
        (tableOf vault numberText stored) name).map .string := by
  refine ⟨_, _, stored_of_send fields header fits, parse_stringify _, fun name => ?_⟩
  have clean : Clean (mergedHeaders numberText raw (headersText (readChannelSecrets vault stored))) :=
    (clean_mergedHeaders raw _).1
  rw [textEntries, get?_mapValues, get?_ofMembers clean.distinct, get?_mergedHeaders]
  rfl

end Store

/-! What the page is shown. -/

section Redacted

variable {numberText : Text → Text}

theorem redactWebhookHeaders_congr {first second : Text}
    (same : keys (parseWebhookHeaders numberText first) = keys (parseWebhookHeaders numberText second)) :
    redactWebhookHeaders numberText first = redactWebhookHeaders numberText second := by
  unfold redactWebhookHeaders
  rw [same]

theorem clean_masked {headers : List (Text × Text)} (clean : Clean headers) :
    Clean (mapValues (fun _ => webhookHeaderMask) headers) := by
  refine ⟨?_, fun entry member => ?_, fun entry member => ?_⟩
  · rw [keys_mapValues]
    exact clean.distinct
  · obtain ⟨old, inside, rfl⟩ := List.mem_map.mp member
    exact clean.names old inside
  · obtain ⟨old, -, rfl⟩ := List.mem_map.mp member
    rfl

/-- The redacted headers have the same names, each with the mask. -/
theorem get?_redactWebhookHeaders (raw name : Text) :
    get? name (parseWebhookHeaders numberText (redactWebhookHeaders numberText raw)) =
      (get? name (parseWebhookHeaders numberText raw)).map fun _ => webhookHeaderMask := by
  obtain ⟨clean, few⟩ : Clean (parseWebhookHeaders numberText raw) ∧
      (parseWebhookHeaders numberText raw).length ≤ 20 := clean_parseWebhookHeaders raw
  unfold redactWebhookHeaders
  generalize parseWebhookHeaders numberText raw = headers at clean few
  dsimp only
  split
  · rename_i nothing
    have empty : headers = [] := List.map_eq_nil_iff.mp nothing
    subst empty
    rfl
  · have masked : (keys headers).map (fun name => (name, webhookHeaderMask)) =
        mapValues (fun _ => webhookHeaderMask) headers := by
      rw [keys, List.map_map]
      rfl
    have cleanMasked := clean_masked clean
    have ordered := ofMembers_perm cleanMasked.distinct
    have length := ordered.length_eq
    rw [mapValues, List.length_map] at length
    rw [masked, get?_parseWebhookHeaders (cleanMasked.perm ordered.symm) (length.trans_le few),
      get?_ofMembers cleanMasked.distinct, get?_mapValues]

end Redacted

/-- Over all requests the stored headers are those that the requests ask for, as long as no headers are cut.
Headers that are sent are stored as an object of the entries that are meant. What the page is shown depends
on the names only, and has each of them with the mask. -/
theorem webhook_headers_round_trip {σ : Type} (vault : Vault σ) (numberText : Text → Text) :
    (∀ stored requests, Runs.Along (request vault numberText) (RequestFits vault numberText) stored requests →
      tableOf vault numberText (Runs.run (request vault numberText) stored requests) =
        Runs.run (intended numberText) (tableOf vault numberText stored) requests) ∧
    (∀ stored body raw, (fieldChanges numberText body channelSecretFields).toBool = true →
      headerEdit numberText body = .ok (.send raw) → RequestFits vault numberText stored body →
      ∃ text entries, get? webhookHeadersKey (readChannelSecrets vault (request vault numberText stored body)) =
          some text ∧ parse text = some (.object entries) ∧
        ∀ name, get? name entries = (Edited (parseWebhookHeaders numberText raw)
          (tableOf vault numberText stored) name).map .string) ∧
    (∀ first second, keys (parseWebhookHeaders numberText first) = keys (parseWebhookHeaders numberText second) →
      redactWebhookHeaders numberText first = redactWebhookHeaders numberText second) ∧
    ∀ raw name, get? name (parseWebhookHeaders numberText (redactWebhookHeaders numberText raw)) =
      (get? name (parseWebhookHeaders numberText raw)).map fun _ => webhookHeaderMask := by
  refine ⟨fun stored requests fits => ?_, fun stored body raw read header fits => ?_,
    fun _ _ => redactWebhookHeaders_congr, get?_redactWebhookHeaders⟩
  · induction requests generalizing stored with
    | nil => rfl
    | cons body rest ih =>
        rw [Runs.run_cons, Runs.run_cons, ih _ fits.2, tableOf_request fits.1]
  · cases fields : fieldChanges numberText body channelSecretFields with
    | error failure =>
        rw [fields] at read
        cases read
    | ok changes => exact parse_of_send fields header fits

/-! Requests. -/

instance (numberText : Text → Text) (secrets : Secrets) (edit : HeaderEdit) :
    Decidable (edit.Fits numberText secrets) :=
  match edit with
  | .send raw => inferInstanceAs (Decidable
      ((mergeMaskedWebhookHeaders numberText raw (headersText secrets)).length ≤ 4000))
  | .leave => .isTrue trivial
  | .clear => .isTrue trivial

theorem requestFits_of_read {σ : Type} {vault : Vault σ} {numberText : Text → Text}
    {stored : Option (Stored σ)} {body : List (Text × Json)} {edit : HeaderEdit}
    (read : headerEdit numberText body = .ok edit)
    (fits : edit.Fits numberText (readChannelSecrets vault stored)) :
    RequestFits vault numberText stored body := by
  intro other same
  cases read.symm.trans same
  exact fits

/-- A vault that hides nothing. -/
def glass : Vault Text := ⟨id, some, fun _ => rfl⟩

def sending (headers : List (Text × Text)) : List (Text × Json) :=
  [(webhookHeadersKey, .string (stringify headers))]

def firstHeaders : List (Text × Text) :=
  [(units "Authorization", units "secret"), (units "X-Id", units "7")]

/-- The secret is kept, the identifier removed, a name added. -/
def editedHeaders : List (Text × Text) :=
  [(units "Authorization", webhookHeaderMask), (units "X-Name", units "n")]

theorem webhook_headers_round_trip_edited :
    tableOf glass id (Runs.run (request glass id) none [sending firstHeaders, sending editedHeaders])
      (units "Authorization") = some (units "secret") := by
  have first : headerEdit id (sending firstHeaders) = .ok (.send (stringify firstHeaders)) := by rfl
  have second : headerEdit id (sending editedHeaders) = .ok (.send (stringify editedHeaders)) := by rfl
  rw [(webhook_headers_round_trip glass id).1 none [sending firstHeaders, sending editedHeaders]
    ⟨requestFits_of_read first (by decide +kernel), requestFits_of_read second (by decide +kernel), trivial⟩]
  decide +kernel

/-! A name with a line break is left out; a long value is cut with its closing quote. -/

theorem fieldChanges_sending (headers : List (Text × Text)) :
    fieldChanges id (sending headers) channelSecretFields =
      .ok (channelSecretFields.map fun field => (field, .leave)) := by
  rfl

theorem trim_stringify (headers : List (Text × Text)) : trim (stringify headers) = stringify headers := by
  unfold trim Trim.trimBy stringify
  rw [List.dropWhile_cons_of_neg (by decide)]
  simp only [List.reverse_cons, List.reverse_append, List.reverse_nil, List.nil_append, List.cons_append]
  rw [List.dropWhile_cons_of_neg (by decide)]
  simp

theorem headerEdit_sending {name value : Text} (some_ : trim name ≠ []) :
    headerEdit id (sending [(name, value)]) = .ok (.send (stringify [(name, value)])) := by
  have there : get? webhookHeadersKey (sending [(name, value)]) = some (.string (stringify [(name, value)])) := by
    rw [sending, get?_cons, if_pos rfl]
  have valid : validateWebhookHeaders (stringify [(name, value)]) = .ok () := by
    have few : ¬ 20 < (textEntries (ofMembers [(name, value)])).length := by
      simp [textEntries, mapValues, ofMembers, put, keys, insertKey]
    have each : (textEntries (ofMembers [(name, value)])).all isHeaderEntry = true := by
      simp [textEntries, mapValues, ofMembers, put, keys, insertKey, isHeaderEntry, some_]
    unfold validateWebhookHeaders
    rw [parse_stringify]
    dsimp only
    rw [if_neg few, if_pos each]
  unfold headerEdit
  rw [there]
  simp only [textOrError, textOf, Except.bind, bind, trim_stringify]
  rw [if_neg (show stringify [(name, value)] ≠ [] from List.cons_ne_nil _ _), valid]
  rfl

theorem get?_request_sending {name value : Text} (some_ : trim name ≠ []) :
    get? webhookHeadersKey (readChannelSecrets glass (request glass id none (sending [(name, value)]))) =
      some ((mergeMaskedWebhookHeaders id (stringify [(name, value)]) []).take 4000) := by
  have accepted : updateChannelSecrets id (sending [(name, value)]) (readChannelSecrets glass none) =
      .ok ([(webhookHeadersKey, (mergeMaskedWebhookHeaders id (stringify [(name, value)]) []).take 4000)], true) := by
    rw [updateChannelSecrets, fieldChanges_sending, headerEdit_sending some_]
    rfl
  rw [get?_request accepted, get?_cons, if_pos rfl]

theorem parseString_replicate (n : Nat) : parseString (List.replicate n 97) = none := by
  induction n with
  | zero => rfl
  | succ n ih => rw [List.replicate_succ, parseString_plain (by decide) (by decide) (by decide), ih]; rfl

theorem quoteUnits_replicate (n : Nat) : quoteUnits (List.replicate n 97) = List.replicate n 97 := by
  induction n with
  | zero => rfl
  | succ n ih =>
      cases n with
      | zero => rfl
      | succ n =>
          rw [List.replicate_succ, List.replicate_succ, quoteUnits, if_neg (by decide), ← List.replicate_succ, ih]
          rfl

/-- A header whose value is `n + 1` times the letter a. -/
def longHeader (n : Nat) : List (Text × Text) := [(units "A", List.replicate (n + 1) 97)]

theorem clean_longHeader (n : Nat) : Clean (longHeader n) := by
  refine ⟨List.nodup_singleton _, ?_, ?_⟩
  · intro entry member
    cases List.mem_singleton.mp member
    have name : trim (units "A") = units "A" ∧
        ¬ (units "A" = [] ∨ (units "A").any isLineBreak = true) ∧ units "A" ≠ units "__proto__" := by decide
    exact name
  · intro entry member
    cases List.mem_singleton.mp member
    exact List.map_replicate

theorem mergedHeaders_longHeader (n : Nat) : mergedHeaders id (stringify (longHeader n)) [] = longHeader n := by
  have other : List.replicate (n + 1) 97 ≠ webhookHeaderMask := by
    intro same
    have first := congrArg List.head? same
    rw [List.replicate_succ, List.head?_cons] at first
    exact absurd first (by decide)
  rw [mergedHeaders, parseWebhookHeaders_stringify (clean_longHeader n) (by decide : 1 ≤ 20)]
  change mergeEntry (parseWebhookHeaders id []) [] (units "A", List.replicate (n + 1) 97) = longHeader n
  rw [mergeEntry, if_neg other]
  rfl

theorem take_stringify_longHeader {n m : Nat} (short : m ≤ n) :
    (stringify (longHeader n)).take (m + 6) = 123 :: 34 :: 65 :: 34 :: 58 :: 34 :: List.replicate m 97 := by
  have whole : stringify (longHeader n) =
      123 :: 34 :: 65 :: 34 :: 58 :: 34 :: (List.replicate (n + 1) 97 ++ [34] ++ [125]) := by
    simp only [longHeader, stringify, stringifyMembers, quote, quoteUnits_replicate]
    rfl
  have kept : (List.replicate (n + 1) 97 ++ [34] ++ [125]).take m = List.replicate m 97 := by
    rw [List.append_assoc, List.take_append_of_le_length (by simp only [List.length_replicate]; omega),
      List.take_replicate, min_eq_left (by omega)]
  rw [whole]
  simp only [List.take_succ_cons, kept]

theorem parse_cut (m : Nat) : parse (123 :: 34 :: 65 :: 34 :: 58 :: 34 :: List.replicate m 97) = none := by
  have value (depth : Nat) : parseValue (depth + 1) (34 :: List.replicate m 97) = none := by
    rw [parseValue, skipSpace_cons rfl]
    simp only [if_true, parseString_replicate, Option.map_none]
  have member (depth : Nat) :
      parseMembers (depth + 2) (34 :: 65 :: 34 :: 58 :: 34 :: List.replicate m 97) = none := by
    rw [parseMembers, skipSpace_cons rfl]
    have key : parseString (65 :: 34 :: 58 :: 34 :: List.replicate m 97) =
        some ([65], 58 :: 34 :: List.replicate m 97) := by
      rw [parseString_plain (by decide) (by decide) (by decide), parseString]
      rfl
    simp only [key, Option.bind_eq_bind, Option.bind_some, skipSpace_cons (show isSpace 58 = false from rfl),
      value, Option.bind_none]
  unfold parse
  rw [parseValue, skipSpace_cons rfl]
  simp only [show (123 : Nat) ≠ 34 by decide, if_false, if_true, skipSpace_cons (show isSpace 34 = false from rfl),
    List.length_cons, member, Option.map_none]

def lineBreakHeader : List (Text × Text) := [(units "A\nB", units "v")]

/-- The edited entries are not what is stored: the first is left out, the second is no JSON any more. -/
theorem edited_headers_not_stored :
    (headerEdit id (sending lineBreakHeader) = .ok (.send (stringify lineBreakHeader)) ∧
      get? webhookHeadersKey (readChannelSecrets glass (request glass id none (sending lineBreakHeader))) =
        some (stringify [])) ∧
    headerEdit id (sending (longHeader 4000)) = .ok (.send (stringify (longHeader 4000))) ∧
      ∃ text, get? webhookHeadersKey
        (readChannelSecrets glass (request glass id none (sending (longHeader 4000)))) = some text ∧
        parse text = none := by
  refine ⟨⟨headerEdit_sending (by decide), ?_⟩, headerEdit_sending (by decide), _,
    get?_request_sending (by decide), ?_⟩
  · have merged : mergeMaskedWebhookHeaders id (stringify lineBreakHeader) [] = stringify [] := by decide +kernel
    rw [lineBreakHeader, get?_request_sending (by decide)]
    exact congrArg (fun text => some (text.take 4000)) merged
  · change parse ((stringify (mergedHeaders id (stringify (longHeader 4000)) [])).take (3994 + 6)) = none
    rw [mergedHeaders_longHeader, take_stringify_longHeader (show 3994 ≤ 4000 by decide), parse_cut]

end NieSla.Alerts.Webhook
