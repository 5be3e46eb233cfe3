import HetidaDesigner.Adapters.Kafka
import Mathlib.Data.List.Perm.Lattice

/-!
# Messages of the Kafka adapter

What `gather_messages` of `adapters/kafka` makes of the outputs which are wired to sinks, in
whatever order they come. An output is placed into the message with its identifier for the topic of
its configuration, under its value key or, if that is unset, as the only value.
-/

namespace HetidaDesigner

open Checks KeyedList

variable {J A : Type}

/-! ## Parts of messages -/

/-- What an entry stands for in a message. -/
def messagePart (adapter : KafkaAdapterConfig) (value : PyStr → Except KafkaError A)
    (entry : PyStr × FilteredEntry J) : Except KafkaError (KafkaMessagePart A) := do
  let id ← match entry.2.refKey.or entry.2.refId with
    | none => throw .assertion
    | some id => pure id
  let parsed ← parseSinkId adapter id
  let text ← messageValueKeyFilter entry.2.filters
  let value ← value entry.1
  let valueKey := (parseValueAndMsgIdentifier text).2
  return {
    parsed := parsed
    messageIdentifier := (parseValueAndMsgIdentifier text).1
    messageValueKey := if valueKey = [] then none else some valueKey
    name := entry.1
    value := value }

/-- The configuration and the identifier which determine the message of a part. -/
def KafkaMessagePart.message (part : KafkaMessagePart A) : PyStr × PyStr :=
  (part.parsed.configKey, part.messageIdentifier)

/-- The parts of a message. -/
def partsOf (parts : List (KafkaMessagePart A)) (message : PyStr × PyStr) :
    List (KafkaMessagePart A) :=
  parts.filter fun part => part.message = message

/-- A part under its value key. -/
def KafkaMessagePart.keyed (part : KafkaMessagePart A) : Option PyStr × KafkaMessagePart A :=
  (part.messageValueKey, part)

/-- The messages with a part entered. -/
def withPart (messages : KafkaMessages A) (part : KafkaMessagePart A) : KafkaMessages A :=
  let ofConfig := (messages.lookup part.parsed.configKey).getD []
  let parts := (ofConfig.lookup part.messageIdentifier).getD []
  insertEntry Prod.fst messages (part.parsed.configKey,
    insertEntry Prod.fst ofConfig (part.messageIdentifier, parts ++ [part.keyed]))

/-- The part of a round which enters what an output stands for. -/
def addPart (messages : KafkaMessages A) (part : KafkaMessagePart A) :
    Except KafkaError (KafkaMessages A) := do
  let ofConfig := (messages.lookup part.parsed.configKey).getD []
  let parts := (ofConfig.lookup part.messageIdentifier).getD []
  require (parts.all fun other => other.1 ≠ part.messageValueKey) .adapterHandling
  require (part.messageValueKey ≠ none || parts.isEmpty) .adapterHandling
  return withPart messages part

/-! ## What the messages should be -/

/-- The outputs are wired to sinks: their ids are accepted, a filter for the value key is a text,
and there are values for them. -/
structure WiredToSinks (adapter : KafkaAdapterConfig) (outputs : List (PyStr × FilteredEntry J))
    (values : List (PyStr × A)) : Prop where
  names_unique : (outputs.map Prod.fst).Nodup
  sinks : ∀ output ∈ outputs, ∃ id, output.2.refKey.or output.2.refId = some id ∧
    ∃ parsed, parseSinkId adapter id = .ok parsed
  filters : ∀ output ∈ outputs, ∃ text, messageValueKeyFilter output.2.filters = .ok text
  values_given : ∀ output ∈ outputs, output.1 ∈ values.map Prod.fst

/-- The values by the names of the outputs. -/
def outputValue (values : List (PyStr × A)) (name : PyStr) : Except KafkaError A :=
  match values.lookup name with
  | none => .error .keyError
  | some value => .ok value

/-- The parts for outputs which are wired to sinks. -/
def outputParts (adapter : KafkaAdapterConfig) (outputs : List (PyStr × FilteredEntry J))
    (values : List (PyStr × A)) : List (KafkaMessagePart A) :=
  outputs.filterMap fun output => (messagePart adapter (outputValue values) output).toOption

/-- The value keys in a message. -/
def valueKeys (parts : List (KafkaMessagePart A)) (message : PyStr × PyStr) :
    List (Option PyStr) :=
  (partsOf parts message).map KafkaMessagePart.messageValueKey

/-- In some message a value key occurs twice or an unset key together with another entry. -/
def ConflictingKeys (parts : List (KafkaMessagePart A)) : Prop :=
  ∃ message, ¬ (valueKeys parts message).Nodup ∨
    (none ∈ valueKeys parts message ∧ valueKeys parts message ≠ [none])

/-- Messages are the same up to order, and so are the values of each of them. -/
def SameMessages (messages messages' : List (List (Option PyStr × KafkaMessagePart A))) : Prop :=
  ∃ reordered, reordered.Perm messages' ∧ List.Forall₂ List.Perm messages reordered

/-- The messages for outputs do not depend on the order of the outputs, conflicts are reported, and
the messages are made of the outputs. -/
structure MessagesOrderIndependent (adapter : KafkaAdapterConfig)
    (outputs : List (PyStr × FilteredEntry J)) (values : List (PyStr × A)) : Prop where
  same : (∀ reordered, reordered.Perm outputs →
      ∃ error, gatherMessages adapter reordered values = .error error) ∨
    ∃ messages, ∀ reordered, reordered.Perm outputs →
      ∃ messages', gatherMessages adapter reordered values = .ok messages' ∧
        SameMessages messages messages'
  raises : ∀ reordered, reordered.Perm outputs →
    (gatherMessages adapter reordered values = .error .adapterHandling ↔
      ConflictingKeys (outputParts adapter outputs values))
  placed : ∀ reordered messages, reordered.Perm outputs →
    gatherMessages adapter reordered values = .ok messages →
      (messages.flatten.map fun entry => entry.2.name).Perm (outputs.map Prod.fst) ∧
      ∀ message ∈ messages,
        (∃ part, message = [(none, part)]) ∨ ∀ entry ∈ message, entry.1 ≠ none

/-- Some value key occurs twice in a message, or an unset key is always alone. -/
def UnsetKeysAloneUnlessDuplicates (parts : List (KafkaMessagePart A)) : Prop :=
  (∃ message, ¬ (valueKeys parts message).Nodup) ∨
    ∀ message, none ∈ valueKeys parts message → valueKeys parts message = [none]

/-! ## Entering parts one after the other -/

/-- A part does not conflict with one which has been entered before. -/
def Precedes (earlier part : KafkaMessagePart A) : Prop :=
  earlier.message = part.message →
    earlier.messageValueKey ≠ part.messageValueKey ∧ part.messageValueKey ≠ none

/-- What is there after entering parts: each message with its parts in their order. -/
structure Gathered (parts : List (KafkaMessagePart A)) (messages : KafkaMessages A) : Prop where
  configs : (messages.map Prod.fst).Nodup
  identifiers : ∀ ofConfig ∈ messages, (ofConfig.2.map Prod.fst).Nodup
  nonempty : ∀ ofConfig ∈ messages, ∀ ofMessage ∈ ofConfig.2, ofMessage.2 ≠ []
  found : ∀ message : PyStr × PyStr,
    (((messages.lookup message.1).getD []).lookup message.2).getD [] =
      (partsOf parts message).map KafkaMessagePart.keyed

/-- One round of the loop for an entry enters what it stands for. -/
theorem gatherOne_eq_addPart {adapter : KafkaAdapterConfig} {value : PyStr → Except KafkaError A}
    {entry : PyStr × FilteredEntry J} {part : KafkaMessagePart A}
    (h : messagePart adapter value entry = .ok part) (messages : KafkaMessages A) :
    gatherOne adapter value messages entry = addPart messages part := by
  unfold messagePart at h
  unfold gatherOne
  cases hid : entry.2.refKey.or entry.2.refId with
  | none =>
    rw [hid] at h
    cases h
  | some id =>
    rw [hid] at h
    obtain ⟨_, heq, h⟩ := bind_eq_ok.mp h
    obtain rfl := return_eq_ok.mp heq
    obtain ⟨parsed, hparsed, h⟩ := bind_eq_ok.mp h
    obtain ⟨text, htext, h⟩ := bind_eq_ok.mp h
    obtain ⟨a, ha, h⟩ := bind_eq_ok.mp h
    obtain rfl := return_eq_ok.mp h
    change (parseSinkId adapter id >>= _) = _
    rw [hparsed]
    change (messageValueKeyFilter entry.2.filters >>= _) = _
    rw [htext, ha]
    rfl

/-- The loop for entries enters what they stand for. -/
theorem foldlM_gatherOne {adapter : KafkaAdapterConfig} {value : PyStr → Except KafkaError A}
    {entries : List (PyStr × FilteredEntry J)} {parts : List (KafkaMessagePart A)}
    (h : List.Forall₂ (fun entry part => messagePart adapter value entry = .ok part) entries parts)
    (messages : KafkaMessages A) :
    entries.foldlM (gatherOne adapter value) messages = parts.foldlM addPart messages := by
  induction h generalizing messages with
  | nil => rfl
  | cons hfirst _ ih =>
    rw [List.foldlM_cons, List.foldlM_cons, gatherOne_eq_addPart hfirst]
    exact congrArg _ (funext ih)

/-- The parts of a message after one more part. -/
theorem partsOf_concat (parts : List (KafkaMessagePart A)) (part : KafkaMessagePart A)
    (message : PyStr × PyStr) :
    partsOf (parts ++ [part]) message =
      if part.message = message then partsOf parts message ++ [part] else partsOf parts message := by
  rw [partsOf, List.filter_append, List.filter_singleton]
  by_cases h : part.message = message
  · rw [if_pos h, decide_eq_true h]
    rfl
  · rw [if_neg h, decide_eq_false h]
    exact List.append_nil _

section Add

variable {parts : List (KafkaMessagePart A)} {messages : KafkaMessages A}

/-- Nothing has been entered at the start. -/
theorem gathered_nil : Gathered ([] : List (KafkaMessagePart A)) [] :=
  ⟨List.nodup_nil, fun _ h => absurd h List.not_mem_nil, fun _ h => absurd h List.not_mem_nil,
    fun _ => rfl⟩

/-- What is found for the message of a part. -/
theorem Gathered.found_message (h : Gathered parts messages) (part : KafkaMessagePart A) :
    (((messages.lookup part.parsed.configKey).getD []).lookup part.messageIdentifier).getD [] =
      (partsOf parts part.message).map KafkaMessagePart.keyed :=
  h.found part.message

/-- The identifiers of the messages of a configuration are distinct. -/
theorem Gathered.identifiers_of_config (h : Gathered parts messages) (config : PyStr) :
    (((messages.lookup config).getD []).map Prod.fst).Nodup := by
  cases hlookup : messages.lookup config with
  | none => exact List.nodup_nil
  | some ofConfig => exact h.identifiers _ (mem_of_lookup_eq_some hlookup)

/-- A message of a configuration has parts. -/
theorem Gathered.nonempty_of_config (h : Gathered parts messages) (config : PyStr)
    {ofMessage : PyStr × List (Option PyStr × KafkaMessagePart A)}
    (hmem : ofMessage ∈ (messages.lookup config).getD []) : ofMessage.2 ≠ [] := by
  cases hlookup : messages.lookup config with
  | none =>
    rw [hlookup] at hmem
    exact absurd hmem List.not_mem_nil
  | some ofConfig =>
    rw [hlookup] at hmem
    exact h.nonempty _ (mem_of_lookup_eq_some hlookup) _ hmem

/-- What is there after one more part. -/
theorem Gathered.withPart (h : Gathered parts messages) (part : KafkaMessagePart A) :
    Gathered (parts ++ [part]) (withPart messages part) := by
  have hfound := h.found_message part
  refine ⟨insertEntry_nodup h.configs _, fun ofConfig hmem => ?_, fun ofConfig hmem => ?_,
    fun message => ?_⟩
  · rcases mem_insertEntry_iff.mp hmem with rfl | ⟨hold, -⟩
    · exact insertEntry_nodup (h.identifiers_of_config part.parsed.configKey) _
    · exact h.identifiers _ hold
  · rcases mem_insertEntry_iff.mp hmem with rfl | ⟨hold, -⟩
    · intro ofMessage hmessage
      rcases mem_insertEntry_iff.mp hmessage with rfl | ⟨hold, -⟩
      · simp
      · exact h.nonempty_of_config part.parsed.configKey hold
    · exact h.nonempty _ hold
  · rw [HetidaDesigner.withPart, list_lookup_insertEntry, partsOf_concat]
    by_cases hconfig : message.1 = part.parsed.configKey
    · rw [if_pos hconfig, Option.getD_some, list_lookup_insertEntry]
      by_cases hidentifier : message.2 = part.messageIdentifier
      · have hsame : part.message = message := Prod.ext hconfig.symm hidentifier.symm
        rw [if_pos hidentifier, if_pos hsame, Option.getD_some, hfound, hsame, List.map_append]
        rfl
      · have hother : part.message ≠ message := fun heq => hidentifier (heq ▸ rfl)
        rw [if_neg hidentifier, if_neg hother, ← hconfig, h.found]
    · have hother : part.message ≠ message := fun heq => hconfig (heq ▸ rfl)
      rw [if_neg hconfig, if_neg hother, h.found]

/-- A part is entered unless it conflicts with an earlier one. -/
theorem Gathered.addPart_of_precedes (h : Gathered parts messages) {part : KafkaMessagePart A}
    (hprecedes : ∀ earlier ∈ parts, Precedes earlier part) :
    addPart messages part = .ok (HetidaDesigner.withPart messages part) := by
  have hfound := h.found_message part
  have hearlier (earlier : KafkaMessagePart A) (hmem : earlier ∈ partsOf parts part.message) :
      earlier.messageValueKey ≠ part.messageValueKey ∧ part.messageValueKey ≠ none := by
    obtain ⟨hmem, hmessage⟩ := List.mem_filter.mp hmem
    exact hprecedes earlier hmem (of_decide_eq_true hmessage)
  unfold addPart
  dsimp only
  rw [hfound, require_bind_of, require_bind_of]
  · rfl
  · cases hparts : partsOf parts part.message with
    | nil => simp
    | cons earlier rest =>
      have hset := (hearlier earlier (hparts ▸ List.mem_cons_self)).2
      simp [hset]
  · rw [List.all_eq_true]
    intro other hother
    obtain ⟨earlier, hmem, rfl⟩ := List.mem_map.mp hother
    exact decide_eq_true (hearlier earlier hmem).1

/-- A part which conflicts with an earlier one is refused. -/
theorem Gathered.addPart_of_not_precedes (h : Gathered parts messages) {part : KafkaMessagePart A}
    (hprecedes : ¬ ∀ earlier ∈ parts, Precedes earlier part) :
    addPart messages part = .error .adapterHandling := by
  have hfound := h.found_message part
  simp only [Precedes, not_forall] at hprecedes
  obtain ⟨earlier, hmem, hmessage, hconflict⟩ := hprecedes
  have hearlier : earlier ∈ partsOf parts part.message :=
    List.mem_filter.mpr ⟨hmem, decide_eq_true hmessage⟩
  unfold addPart
  dsimp only
  rw [hfound]
  by_cases hkey : earlier.messageValueKey = part.messageValueKey
  · refine require_bind_of_not (List.all_eq_false.mpr ⟨earlier.keyed, ?_, ?_⟩)
    · exact List.mem_map_of_mem hearlier
    · simp [KafkaMessagePart.keyed, hkey]
  · have hunset : part.messageValueKey = none := by
      by_contra hset
      exact hconflict ⟨hkey, hset⟩
    have hsecond : (part.messageValueKey ≠ none ||
        ((partsOf parts part.message).map KafkaMessagePart.keyed).isEmpty) = false := by
      have hne := List.ne_nil_of_mem hearlier
      simp [hunset, hne]
    cases hfirst : (((partsOf parts part.message).map KafkaMessagePart.keyed).all
        fun other => other.1 ≠ part.messageValueKey) with
    | false => exact require_bind_of_not rfl
    | true => exact (require_bind_of rfl).trans (require_bind_of_not hsecond)

/-- The loop succeeds if no part conflicts with an earlier one. -/
theorem Gathered.foldlM_of_pairwise (h : Gathered parts messages) {rest : List (KafkaMessagePart A)}
    (hrest : rest.Pairwise Precedes) (hearlier : ∀ earlier ∈ parts, ∀ part ∈ rest,
      Precedes earlier part) :
    ∃ messages', rest.foldlM addPart messages = .ok messages' ∧
      Gathered (parts ++ rest) messages' := by
  induction rest generalizing parts messages with
  | nil => exact ⟨messages, rfl, by rwa [List.append_nil]⟩
  | cons part rest ih =>
    obtain ⟨hfirst, hrest⟩ := List.pairwise_cons.mp hrest
    have hprecedes : ∀ earlier ∈ parts, Precedes earlier part :=
      fun earlier hmem => hearlier earlier hmem part List.mem_cons_self
    obtain ⟨messages', hfold, hgathered⟩ := ih (h.withPart part) hrest (by
      intro earlier hmem later hlater
      rcases List.mem_append.mp hmem with hmem | hmem
      · exact hearlier earlier hmem later (List.mem_cons_of_mem _ hlater)
      · rw [List.mem_singleton.mp hmem]
        exact hfirst later hlater)
    refine ⟨messages', ?_, by rwa [List.append_assoc, List.singleton_append] at hgathered⟩
    rw [List.foldlM_cons, h.addPart_of_precedes hprecedes]
    exact hfold

/-- The loop fails if some part conflicts with an earlier one. -/
theorem Gathered.foldlM_of_not_pairwise (h : Gathered parts messages)
    {rest : List (KafkaMessagePart A)}
    (hrest : ¬ (rest.Pairwise Precedes ∧ ∀ earlier ∈ parts, ∀ part ∈ rest,
      Precedes earlier part)) :
    rest.foldlM addPart messages = .error .adapterHandling := by
  induction rest generalizing parts messages with
  | nil => exact absurd ⟨List.Pairwise.nil, fun _ _ _ h => absurd h List.not_mem_nil⟩ hrest
  | cons part rest ih =>
    rw [List.foldlM_cons]
    by_cases hprecedes : ∀ earlier ∈ parts, Precedes earlier part
    · rw [h.addPart_of_precedes hprecedes]
      refine ih (h.withPart part) fun ⟨hpairwise, hearlier⟩ => hrest ⟨?_, ?_⟩
      · refine List.pairwise_cons.mpr ⟨fun later hlater => ?_, hpairwise⟩
        exact hearlier part (List.mem_append_right _ (List.mem_singleton_self _)) later hlater
      · intro earlier hmem later hlater
        rcases List.mem_cons.mp hlater with rfl | hlater
        · exact hprecedes earlier hmem
        · exact hearlier earlier (List.mem_append_left _ hmem) later hlater
    · rw [h.addPart_of_not_precedes hprecedes]
      rfl

/-- The messages are those of the parts, one for each configuration and identifier. -/
theorem Gathered.exists_messages (h : Gathered parts messages) :
    ∃ groups : List (PyStr × PyStr), groups.Nodup ∧
      (∀ message, message ∈ groups ↔ ∃ part ∈ parts, part.message = message) ∧
      (messages.flatMap fun ofConfig => ofConfig.2.map Prod.snd) =
        groups.map fun message => (partsOf parts message).map KafkaMessagePart.keyed := by
  have hfound (ofConfig : _) (hconfig : ofConfig ∈ messages) (ofMessage : _)
      (hmessage : ofMessage ∈ ofConfig.2) :
      ofMessage.2 = (partsOf parts (ofConfig.1, ofMessage.1)).map KafkaMessagePart.keyed := by
    have hlookup := h.found (ofConfig.1, ofMessage.1)
    rw [(lookup_eq_some_iff_mem h.configs).mpr hconfig, Option.getD_some,
      (lookup_eq_some_iff_mem (h.identifiers ofConfig hconfig)).mpr hmessage] at hlookup
    exact hlookup
  refine ⟨messages.flatMap fun ofConfig => ofConfig.2.map fun ofMessage =>
    (ofConfig.1, ofMessage.1), ?_, fun message => ?_, ?_⟩
  · rw [List.nodup_flatMap]
    constructor
    · intro ofConfig hconfig
      have hpairs := (h.identifiers ofConfig hconfig).map (Prod.mk_right_injective ofConfig.1)
      rwa [List.map_map] at hpairs
    · refine (List.pairwise_map.mp h.configs).imp fun {ofConfig ofConfig'} hne => ?_
      intro pair hpair hpair'
      obtain ⟨ofMessage, -, rfl⟩ := List.mem_map.mp hpair
      obtain ⟨ofMessage', -, heq⟩ := List.mem_map.mp hpair'
      exact hne (congrArg Prod.fst heq).symm
  · rw [List.mem_flatMap]
    constructor
    · intro ⟨ofConfig, hconfig, hmem⟩
      obtain ⟨ofMessage, hmessage, rfl⟩ := List.mem_map.mp hmem
      have hnonempty := h.nonempty ofConfig hconfig ofMessage hmessage
      rw [hfound ofConfig hconfig ofMessage hmessage, ne_eq, List.map_eq_nil_iff] at hnonempty
      obtain ⟨part, hpart⟩ := List.exists_mem_of_ne_nil _ hnonempty
      obtain ⟨hpart, heq⟩ := List.mem_filter.mp hpart
      exact ⟨part, hpart, of_decide_eq_true heq⟩
    · intro ⟨part, hpart, heq⟩
      have hlookup := h.found message
      have hmem : part ∈ partsOf parts message :=
        List.mem_filter.mpr ⟨hpart, decide_eq_true heq⟩
      have hne : (partsOf parts message).map KafkaMessagePart.keyed ≠ [] :=
        List.ne_nil_of_mem (List.mem_map_of_mem hmem)
      rw [← hlookup] at hne
      cases hconfig : messages.lookup message.1 with
      | none => simp [hconfig] at hne
      | some ofConfig =>
        rw [hconfig, Option.getD_some] at hne
        cases hmessage : ofConfig.lookup message.2 with
        | none => simp [hmessage] at hne
        | some ofMessage =>
          refine ⟨(message.1, ofConfig), mem_of_lookup_eq_some hconfig, ?_⟩
          exact List.mem_map.mpr ⟨(message.2, ofMessage), mem_of_lookup_eq_some hmessage, rfl⟩
  · rw [List.map_flatMap]
    refine List.flatMap_congr fun ofConfig hconfig => ?_
    rw [List.map_map]
    exact List.map_congr_left fun ofMessage hmessage =>
      hfound ofConfig hconfig ofMessage hmessage

end Add

/-! ## Value keys and the order of parts -/

section Keys

variable {parts : List (KafkaMessagePart A)}

/-- The value keys in a message of reordered parts. -/
theorem valueKeys_perm {parts' : List (KafkaMessagePart A)} (h : parts'.Perm parts)
    (message : PyStr × PyStr) : (valueKeys parts' message).Perm (valueKeys parts message) :=
  (h.filter _).map _

/-- Conflicts do not depend on the order of parts. -/
theorem conflictingKeys_iff_of_perm {parts' : List (KafkaMessagePart A)} (h : parts'.Perm parts) :
    ConflictingKeys parts' ↔ ConflictingKeys parts := by
  refine exists_congr fun message => ?_
  have hperm := valueKeys_perm h message
  rw [hperm.nodup_iff, hperm.mem_iff]
  refine or_congr_right (and_congr_right fun _ => not_congr ⟨fun heq => ?_, fun heq => ?_⟩)
  · exact List.perm_singleton.mp (heq ▸ hperm).symm
  · exact List.perm_singleton.mp (heq ▸ hperm)

/-- The value keys of two parts of a message. -/
theorem sublist_valueKeys {part part' : KafkaMessagePart A} (hsublist : [part, part'].Sublist parts)
    (hmessage : part.message = part'.message) :
    [part.messageValueKey, part'.messageValueKey].Sublist (valueKeys parts part'.message) := by
  have hboth : [part, part'].filter (fun other => other.message = part'.message) =
      [part, part'] := by simp [hmessage]
  have hfilter := hsublist.filter fun other => other.message = part'.message
  rw [hboth] at hfilter
  exact hfilter.map KafkaMessagePart.messageValueKey

/-- Distinct value keys in each message are distinct for each two parts of a message. -/
theorem pairwise_keys (h : ∀ message, (valueKeys parts message).Nodup) :
    parts.Pairwise fun part part' =>
      part.message = part'.message → part.messageValueKey ≠ part'.messageValueKey := by
  rw [List.pairwise_iff_forall_sublist]
  intro part part' hsublist hmessage
  have hnodup := (h part'.message).sublist (sublist_valueKeys hsublist hmessage)
  exact fun heq => (List.nodup_cons.mp hnodup).1 (List.mem_singleton.mpr heq)

/-- Parts of which none conflicts with an earlier one have distinct value keys. -/
theorem valueKeys_nodup_of_precedes (h : parts.Pairwise Precedes) (message : PyStr × PyStr) :
    (valueKeys parts message).Nodup := by
  rw [valueKeys, List.Nodup, List.pairwise_map]
  refine (h.filter _).imp_of_mem fun {part part'} hpart hpart' hprecedes => ?_
  have hsame := of_decide_eq_true (List.mem_filter.mp hpart).2
  have hsame' := of_decide_eq_true (List.mem_filter.mp hpart').2
  exact (hprecedes (hsame.trans hsame'.symm)).1

/-- Without conflicts none of the parts conflicts with an earlier one. -/
theorem precedes_of_not_conflictingKeys (h : ¬ ConflictingKeys parts) :
    parts.Pairwise Precedes := by
  simp only [ConflictingKeys, not_exists, not_or, not_not, not_and] at h
  have hkeys := pairwise_keys fun message => (h message).1
  rw [List.pairwise_iff_forall_sublist] at hkeys ⊢
  intro part part' hsublist hmessage
  refine ⟨hkeys hsublist hmessage, fun hunset => ?_⟩
  have hboth := sublist_valueKeys hsublist hmessage
  have halone := (h part'.message).2 (hboth.subset (by simp [hunset]))
  have hlength := hboth.length_le
  rw [halone] at hlength
  simp at hlength

/-- With distinct value keys no part conflicts with an earlier one if the parts with unset keys
come first. -/
theorem precedes_of_unset_first (h : ∀ message, (valueKeys parts message).Nodup) :
    (parts.filter (fun part => part.messageValueKey = none) ++
      parts.filter fun part => !decide (part.messageValueKey = none)).Pairwise Precedes := by
  have hkeys := pairwise_keys h
  have hset {part : KafkaMessagePart A}
      (hpart : part ∈ parts.filter fun part => !decide (part.messageValueKey = none)) :
      part.messageValueKey ≠ none := by
    simpa using (List.mem_filter.mp hpart).2
  have hunset {part : KafkaMessagePart A}
      (hpart : part ∈ parts.filter fun part => part.messageValueKey = none) :
      part.messageValueKey = none := of_decide_eq_true (List.mem_filter.mp hpart).2
  rw [List.pairwise_append]
  refine ⟨?_, ?_, ?_⟩
  · refine (hkeys.filter _).imp_of_mem fun {part part'} hpart hpart' hne hmessage => ?_
    exact absurd ((hunset hpart).trans (hunset hpart').symm) (hne hmessage)
  · refine (hkeys.filter _).imp_of_mem fun {part part'} _ hpart' hne hmessage => ?_
    exact ⟨hne hmessage, hset hpart'⟩
  · intro part hpart part' hpart' _
    rw [hunset hpart]
    exact ⟨Ne.symm (hset hpart'), hset hpart'⟩

end Keys

/-! ## Gathering outputs in any order -/

section Outputs

variable {adapter : KafkaAdapterConfig} {outputs : List (PyStr × FilteredEntry J)}
  {values : List (PyStr × A)}

/-- An output which is wired to a sink stands for a part with its name. -/
theorem WiredToSinks.exists_part (h : WiredToSinks adapter outputs values)
    {output : PyStr × FilteredEntry J} (houtput : output ∈ outputs) :
    ∃ part, messagePart adapter (outputValue values) output = .ok part := by
  obtain ⟨id, hid, parsed, hparsed⟩ := h.sinks output houtput
  obtain ⟨text, htext⟩ := h.filters output houtput
  obtain ⟨value, hvalue⟩ : ∃ value, outputValue values output.1 = .ok value := by
    unfold outputValue
    cases hlookup : values.lookup output.1 with
    | none => exact absurd (h.values_given output houtput) (lookup_eq_none_iff_notMem.mp hlookup)
    | some value => exact ⟨value, rfl⟩
  unfold messagePart
  rw [hid, hvalue]
  change ∃ part, (parseSinkId adapter id >>= _) = .ok part
  rw [hparsed]
  change ∃ part, (messageValueKeyFilter output.2.filters >>= _) = .ok part
  rw [htext]
  exact ⟨_, rfl⟩

/-- The parts are those which the outputs stand for. -/
theorem WiredToSinks.forall₂_outputParts (h : WiredToSinks adapter outputs values) :
    List.Forall₂ (fun part output => messagePart adapter (outputValue values) output = .ok part)
      (outputParts adapter outputs values) outputs := by
  have hall : ∀ output ∈ outputs, ∃ part,
      messagePart adapter (outputValue values) output = .ok part :=
    fun output houtput => h.exists_part houtput
  unfold outputParts
  clear h
  induction outputs with
  | nil => exact .nil
  | cons output rest ih =>
    obtain ⟨⟨part, hpart⟩, hrest⟩ := List.forall_mem_cons.mp hall
    rw [List.filterMap_cons, hpart]
    exact .cons hpart (ih hrest)

/-- Reordered parts are those of reordered outputs. -/
theorem WiredToSinks.exists_outputs (h : WiredToSinks adapter outputs values)
    {parts : List (KafkaMessagePart A)} (hperm : parts.Perm (outputParts adapter outputs values)) :
    ∃ reordered, reordered.Perm outputs ∧ List.Forall₂
      (fun part output => messagePart adapter (outputValue values) output = .ok part)
      parts reordered := by
  obtain ⟨reordered, hforall, hreordered⟩ :=
    List.perm_comp_forall₂ hperm h.forall₂_outputParts
  exact ⟨reordered, hreordered, hforall⟩

/-- Reordered outputs stand for reordered parts. -/
theorem WiredToSinks.exists_parts (h : WiredToSinks adapter outputs values)
    {reordered : List (PyStr × FilteredEntry J)} (hperm : reordered.Perm outputs) :
    ∃ parts, parts.Perm (outputParts adapter outputs values) ∧ List.Forall₂
      (fun part output => messagePart adapter (outputValue values) output = .ok part)
      parts reordered := by
  obtain ⟨parts, hforall, hparts⟩ := List.perm_comp_forall₂ hperm h.forall₂_outputParts.flip
  exact ⟨parts, hparts, hforall.flip⟩

/-- Parts have the names of the outputs. -/
theorem map_name_of_forall₂ {parts : List (KafkaMessagePart A)}
    {entries : List (PyStr × FilteredEntry J)}
    (h : List.Forall₂ (fun part output => messagePart adapter (outputValue values) output = .ok part)
      parts entries) :
    parts.map (fun part => part.name) = entries.map Prod.fst := by
  induction h with
  | nil => rfl
  | @cons part entry _ _ hfirst _ ih =>
    rw [List.map_cons, List.map_cons, ih]
    congr 1
    unfold messagePart at hfirst
    cases hid : entry.2.refKey.or entry.2.refId with
    | none =>
      rw [hid] at hfirst
      cases hfirst
    | some id =>
      rw [hid] at hfirst
      obtain ⟨_, -, hfirst⟩ := bind_eq_ok.mp hfirst
      obtain ⟨_, -, hfirst⟩ := bind_eq_ok.mp hfirst
      obtain ⟨_, -, hfirst⟩ := bind_eq_ok.mp hfirst
      obtain ⟨_, -, hfirst⟩ := bind_eq_ok.mp hfirst
      exact congrArg KafkaMessagePart.name (return_eq_ok.mp hfirst).symm

variable {parts : List (KafkaMessagePart A)}
  (h : List.Forall₂ (fun part output => messagePart adapter (outputValue values) output = .ok part)
    parts outputs)

include h

/-- Outputs whose parts do not conflict with earlier ones yield one message for each configuration
and identifier. -/
theorem gatherMessages_of_precedes (hprecedes : parts.Pairwise Precedes) :
    ∃ groups : List (PyStr × PyStr), groups.Nodup ∧
      (∀ message, message ∈ groups ↔ ∃ part ∈ parts, part.message = message) ∧
      gatherMessages adapter outputs values =
        .ok (groups.map fun message => (partsOf parts message).map KafkaMessagePart.keyed) := by
  obtain ⟨messages, hfold, hgathered⟩ := gathered_nil.foldlM_of_pairwise hprecedes
    fun _ hnone => absurd hnone List.not_mem_nil
  rw [List.nil_append] at hgathered
  obtain ⟨groups, hnodup, hmem, heq⟩ := hgathered.exists_messages
  refine ⟨groups, hnodup, hmem, ?_⟩
  change (outputs.foldlM (gatherOne adapter (outputValue values)) [] >>= _) = _
  rw [foldlM_gatherOne h.flip, hfold, ← heq]
  rfl

/-- Outputs of which the part of one conflicts with that of an earlier one are refused. -/
theorem gatherMessages_of_not_precedes (hprecedes : ¬ parts.Pairwise Precedes) :
    gatherMessages adapter outputs values = .error .adapterHandling := by
  have hfold := gathered_nil.foldlM_of_not_pairwise fun hboth => hprecedes hboth.1
  change (outputs.foldlM (gatherOne adapter (outputValue values)) [] >>= _) = _
  rw [foldlM_gatherOne h.flip, hfold]
  rfl

/-- Without conflicts there are messages, made of the outputs. -/
theorem gatherMessages_of_not_conflictingKeys (hconflict : ¬ ConflictingKeys parts) :
    ∃ groups : List (PyStr × PyStr), groups.Nodup ∧
      (∀ message, message ∈ groups ↔ ∃ part ∈ parts, part.message = message) ∧
      gatherMessages adapter outputs values =
        .ok (groups.map fun message => (partsOf parts message).map KafkaMessagePart.keyed) :=
  gatherMessages_of_precedes h (precedes_of_not_conflictingKeys hconflict)

omit h in
/-- Without conflicts a message has a single value with an unset key or set keys only. -/
theorem unset_alone_or_set (hconflict : ¬ ConflictingKeys parts) (message : PyStr × PyStr) :
    (∃ part, (partsOf parts message).map KafkaMessagePart.keyed = [(none, part)]) ∨
      ∀ entry ∈ (partsOf parts message).map KafkaMessagePart.keyed, entry.1 ≠ none := by
  simp only [ConflictingKeys, not_exists, not_or, not_not, not_and] at hconflict
  by_cases hunset : none ∈ valueKeys parts message
  · left
    have halone := (hconflict message).2 hunset
    rw [valueKeys] at halone
    obtain ⟨part, hparts, hkey⟩ := List.map_eq_singleton_iff.mp halone
    exact ⟨part, by rw [hparts, List.map_singleton, KafkaMessagePart.keyed, hkey]⟩
  · right
    intro entry hentry heq
    obtain ⟨part, hpart, rfl⟩ := List.mem_map.mp hentry
    exact hunset (heq ▸ List.mem_map_of_mem hpart)

omit h in
/-- Messages of reordered parts are the same. -/
theorem sameMessages_of_perm {parts' : List (KafkaMessagePart A)} (hperm : parts'.Perm parts)
    {groups groups' : List (PyStr × PyStr)} (hnodup : groups.Nodup) (hnodup' : groups'.Nodup)
    (hmem : ∀ message, message ∈ groups ↔ ∃ part ∈ parts, part.message = message)
    (hmem' : ∀ message, message ∈ groups' ↔ ∃ part ∈ parts', part.message = message) :
    SameMessages (groups.map fun message => (partsOf parts message).map KafkaMessagePart.keyed)
      (groups'.map fun message => (partsOf parts' message).map KafkaMessagePart.keyed) := by
  refine ⟨groups.map fun message => (partsOf parts' message).map KafkaMessagePart.keyed, ?_, ?_⟩
  · refine List.Perm.map _ ((List.perm_ext_iff_of_nodup hnodup hnodup').mpr fun message => ?_)
    rw [hmem, hmem']
    simp only [hperm.mem_iff]
  · rw [List.forall₂_map_left_iff, List.forall₂_map_right_iff, List.forall₂_same]
    exact fun message _ => (hperm.symm.filter _).map _

/-- The values of the messages are those of the outputs. -/
theorem map_name_flatten {groups : List (PyStr × PyStr)} (hnodup : groups.Nodup)
    (hmem : ∀ message, message ∈ groups ↔ ∃ part ∈ parts, part.message = message) :
    ((groups.map fun message => (partsOf parts message).map KafkaMessagePart.keyed).flatten.map
      fun entry => entry.2.name).Perm (outputs.map Prod.fst) := by
  have hperm := flatMap_filter_perm hnodup fun part hpart =>
    (hmem (KafkaMessagePart.message part)).mpr ⟨part, hpart, rfl⟩
  have hnames := hperm.map fun part => part.name
  rw [map_name_of_forall₂ h, List.map_flatMap] at hnames
  rw [← List.flatMap_def, List.map_flatMap]
  simp only [List.map_map]
  exact hnames

end Outputs

/-- The messages do not depend on the order of the outputs and conflicts are reported exactly if a
value key occurs twice in some message or unset keys are always alone. -/
theorem messagesOrderIndependent_iff {adapter : KafkaAdapterConfig}
    {outputs : List (PyStr × FilteredEntry J)} {values : List (PyStr × A)}
    (h : WiredToSinks adapter outputs values) :
    MessagesOrderIndependent adapter outputs values ↔
      UnsetKeysAloneUnlessDuplicates (outputParts adapter outputs values) := by
  let parts := outputParts adapter outputs values
  constructor
  · intro hindependent
    by_contra hmixed
    rw [UnsetKeysAloneUnlessDuplicates, not_or, not_exists] at hmixed
    obtain ⟨hnodup, halone⟩ := hmixed
    have hconflict : ConflictingKeys parts := by
      simp only [not_forall] at halone
      obtain ⟨message, hunset, hnot⟩ := halone
      exact ⟨message, Or.inr ⟨hunset, hnot⟩⟩
    -- with the unset keys first no conflict is noticed
    have hkeys : ∀ message, (valueKeys parts message).Nodup := fun message =>
      not_not.mp (hnodup message)
    have hprecedes := precedes_of_unset_first hkeys
    have hfirst := List.filter_append_perm
      (fun part : KafkaMessagePart A => decide (part.messageValueKey = none)) parts
    obtain ⟨reordered, hperm, hforall⟩ := h.exists_outputs hfirst
    obtain ⟨groups, -, -, hok⟩ := gatherMessages_of_precedes hforall hprecedes
    have herror := (hindependent.raises reordered hperm).mpr hconflict
    rw [hok] at herror
    cases herror
  · intro halone
    by_cases hduplicate : ∃ message, ¬ (valueKeys parts message).Nodup
    · have herror : ∀ reordered, reordered.Perm outputs →
          gatherMessages adapter reordered values = .error .adapterHandling := by
        intro reordered hperm
        obtain ⟨parts', hparts, hforall⟩ := h.exists_parts hperm
        refine gatherMessages_of_not_precedes hforall fun hprecedes => ?_
        obtain ⟨message, hmessage⟩ := hduplicate
        refine hmessage ((valueKeys_perm hparts message).nodup_iff.mp ?_)
        exact valueKeys_nodup_of_precedes hprecedes message
      refine ⟨Or.inl fun reordered hperm => ⟨_, herror reordered hperm⟩, ?_, ?_⟩
      · intro reordered hperm
        obtain ⟨message, hmessage⟩ := hduplicate
        exact iff_of_true (herror reordered hperm) ⟨message, Or.inl hmessage⟩
      · intro reordered messages hperm hok
        rw [herror reordered hperm] at hok
        cases hok
    · have hconflict : ¬ ConflictingKeys parts := by
        intro ⟨message, hmessage⟩
        rcases hmessage with hmessage | ⟨hunset, hnot⟩
        · exact hduplicate ⟨message, hmessage⟩
        · exact hnot (halone.resolve_left hduplicate message hunset)
      obtain ⟨groups, hnodup, hmem, -⟩ :=
        gatherMessages_of_not_conflictingKeys h.forall₂_outputParts hconflict
      let messages := groups.map fun message =>
        (partsOf parts message).map KafkaMessagePart.keyed
      refine ⟨Or.inr ⟨messages, fun reordered hperm => ?_⟩, fun reordered hperm => ?_,
        fun reordered messages hperm hmessages => ?_⟩
      all_goals
        obtain ⟨parts', hparts, hforall⟩ := h.exists_parts hperm
        have hconflict' := (conflictingKeys_iff_of_perm hparts).not.mpr hconflict
        obtain ⟨groups', hnodup', hmem', hok'⟩ :=
          gatherMessages_of_not_conflictingKeys hforall hconflict'
      · exact ⟨_, hok', sameMessages_of_perm hparts hnodup hnodup' hmem hmem'⟩
      · refine iff_of_false (fun herror => ?_) hconflict
        rw [hok'] at herror
        cases herror
      · rw [hok'] at hmessages
        obtain rfl := Except.ok.inj hmessages
        constructor
        · exact (map_name_flatten hforall hnodup' hmem').trans (hperm.map Prod.fst)
        · intro message hmessage
          obtain ⟨group, -, rfl⟩ := List.mem_map.mp hmessage
          exact unset_alone_or_set hconflict' group

/-! ## An unset key before and after a set one -/

/-- An output with an unset value key. -/
def unsetOutput : PyStr × FilteredEntry ℤ := (['a'], ⟨some "my_key_dataframe".toList, none, []⟩)

/-- An output for the same topic with a value key. -/
def keyedOutput (name key : Char) : PyStr × FilteredEntry ℤ :=
  ([name], ⟨some "my_key_dataframe".toList, none, [("message_value_key".toList, .text [key])]⟩)

/-- The unset key is refused behind a set one, but not in front of it. -/
theorem unset_before_set_not_refused :
    gatherMessages defaultKafkaAdapter [keyedOutput 'b' 'k', unsetOutput]
        [(['a'], (1 : ℤ)), (['b'], 2)] = .error .adapterHandling ∧
      (gatherMessages defaultKafkaAdapter [unsetOutput, keyedOutput 'b' 'k']
        [(['a'], (1 : ℤ)), (['b'], 2)]).isOk = true ∧
      ¬ MessagesOrderIndependent defaultKafkaAdapter [unsetOutput, keyedOutput 'b' 'k']
        [(['a'], (1 : ℤ)), (['b'], 2)] := by
  have hrefused : (gatherMessages defaultKafkaAdapter [keyedOutput 'b' 'k', unsetOutput]
      [(['a'], (1 : ℤ)), (['b'], 2)]) = .error .adapterHandling := by
    rfl
  have hgathered : (gatherMessages defaultKafkaAdapter [unsetOutput, keyedOutput 'b' 'k']
      [(['a'], (1 : ℤ)), (['b'], 2)]).isOk = true := by
    rfl
  refine ⟨hrefused, hgathered, fun h => ?_⟩
  have hconflict := (h.raises _ (List.Perm.swap _ _ [])).mp hrefused
  have herror := (h.raises _ (List.Perm.refl _)).mpr hconflict
  rw [herror] at hgathered
  cases hgathered

/-- Outputs with different value keys are gathered alike in any order. -/
theorem keyedOutputs_orderIndependent :
    MessagesOrderIndependent defaultKafkaAdapter [keyedOutput 'a' 'j', keyedOutput 'b' 'k']
      [(['a'], (1 : ℤ)), (['b'], 2)] := by
  have hwired : WiredToSinks defaultKafkaAdapter [keyedOutput 'a' 'j', keyedOutput 'b' 'k']
      [(['a'], (1 : ℤ)), (['b'], 2)] := by
    refine ⟨by decide, ?_, ?_, by decide⟩
    · intro output houtput
      have hparsed : parseSinkId defaultKafkaAdapter "my_key_dataframe".toList =
          .ok ⟨"my_key".toList, defaultKafkaConfig, .dataframe⟩ := by
        decide +kernel
      refine ⟨"my_key_dataframe".toList, ?_, _, hparsed⟩
      rcases List.mem_pair.mp houtput with rfl | rfl <;> rfl
    · intro output houtput
      rcases List.mem_pair.mp houtput with rfl | rfl <;> exact ⟨_, rfl⟩
  refine (messagesOrderIndependent_iff hwired).mpr (Or.inr fun message hunset => ?_)
  obtain ⟨part, hpart, hkey⟩ := List.mem_map.mp hunset
  have hset : ∀ part ∈ outputParts defaultKafkaAdapter [keyedOutput 'a' 'j', keyedOutput 'b' 'k']
      [(['a'], (1 : ℤ)), (['b'], 2)], part.messageValueKey ≠ none := by
    decide +kernel
  exact absurd hkey (hset part (List.mem_filter.mp hpart).1)

end HetidaDesigner
