/-
Settings files that cannot be used.

Whatever is in a file of settings, there are valid settings in it, or it is
refused as one that cannot be used, unless its content is of a kind that
nobody foresees: it is no text; an escape in it stands for no character, or a
version has too many digits; or a scalar is not the spelling of what it is
meant to be (`Unforeseen`).

Every stage of reading adds its part to that list. Bytes are a text or not
(`decode_eq_ok_iff`); scanning meets an escape or a version, if it is not
that the document is malformed (`gives_scan`); putting tokens together meets
nothing else (`onlyMalformed_ofTokens`); and where a node has no value, there
is something within it that is to blame (`exists_blamed`). What passes all of
them is checked, and the checks list their flaws. So a run that cannot load
its settings ends with the exit code for that, or the content is on the list
(`load_settled`).

How deep a document is nested does not matter here. A reader that calls itself
for what is within something gives up at some depth, which depends on where it
runs (a RecursionError); that is left out.
-/
import FeedSieve.Proofs.Run.Stages
import FeedSieve.Proofs.Settings.Valid
import FeedSieve.Proofs.Text.Utf8
import FeedSieve.Proofs.Yaml.Spelling

namespace FeedSieve.Settings

open Yaml (Node Tag Token Misspelt)

variable {files : Files.Tree} {path : Files.Path} {bytes : Bytes} {why : Unloaded} {s : Profile}
  {t : Text} {node : Node} {tokens : List Token} {fault : Yaml.Fault} {v : Lax.Value}

-- ============================================================= content

/-- The bytes are a document, and this is its node. -/
def IsDocument (bytes : Bytes) (node : Node) : Prop :=
  ∃ t tokens, bytes = Utf8.encode t ∧ Token.scan (plainLines t) = .ok tokens
    ∧ Node.ofTokens tokens = .ok (some node)

/-- What is not foreseen of the content of a file: that it is no text; that an
escape stands for no character, or that a version has more digits than are
read; and that a scalar is misspelt. -/
inductive Unforeseen (bytes : Bytes) : Prop where
  | undecodable (h : ∀ t, bytes ≠ Utf8.encode t)
  | escape {t : Text} {code : Nat} (hbytes : bytes = Utf8.encode t)
      (h : Token.scan (plainLines t) = .error (.noCharacter code))
  | version {t : Text} {digits : Nat} (hbytes : bytes = Utf8.encode t)
      (h : Token.scan (plainLines t) = .error (.tooLong digits))
  | misspelt {node : Node} {tag : Tag} {word : Text} (hdocument : IsDocument bytes node)
      (hpart : Node.Within (.scalar tag word) node) (h : Misspelt tag word)

/-- A document has one node. -/
theorem IsDocument.unique {node' : Node} (h : IsDocument bytes node) (h' : IsDocument bytes node') :
    node' = node := by
  obtain ⟨t, tokens, rfl, hscan, hnode⟩ := h
  obtain ⟨t', tokens', hbytes, hscan', hnode'⟩ := h'
  rw [← Utf8.encode_injective hbytes, hscan] at hscan'
  rw [← Except.ok.inj hscan', hnode] at hnode'
  exact (Option.some.inj (Except.ok.inj hnode')).symm

/-- A document with a value is foreseen. -/
theorem not_unforeseen (hdocument : IsDocument bytes node) (hvalue : node.value = .ok v) :
    ¬ Unforeseen bytes := by
  intro h
  obtain ⟨t, tokens, hbytes, hscan, -⟩ := id hdocument
  cases h with
  | undecodable h => exact h t hbytes
  | escape hbytes' h =>
      rw [Utf8.encode_injective (hbytes'.symm.trans hbytes), hscan] at h
      cases h
  | version hbytes' h =>
      rw [Utf8.encode_injective (hbytes'.symm.trans hbytes), hscan] at h
      cases h
  | misspelt hdocument' hpart h =>
      rw [hdocument.unique hdocument'] at hpart
      exact (Node.exists_value_iff.mp ⟨v, hvalue⟩).2 _ _ hpart h

-- ============================================================= reading

/-- Fields cannot be read if the text cannot be scanned, its tokens are no
document, or its node has no value. -/
theorem readFields_error (h : Yaml.readFields t = .error fault) :
    Token.scan t = .error fault
      ∨ ∃ tokens, Token.scan t = .ok tokens ∧ (Node.ofTokens tokens = .error fault
        ∨ ∃ node, Node.ofTokens tokens = .ok (some node) ∧ node.value = .error fault) := by
  unfold Yaml.readFields at h
  cases hscan : Token.scan t with
  | error other =>
      rw [hscan] at h
      exact Or.inl (congrArg _ (Except.error.inj h))
  | ok tokens =>
      refine Or.inr ⟨tokens, rfl, ?_⟩
      rw [hscan] at h
      cases hnode : Node.ofTokens tokens with
      | error other =>
          simp only [bind, Except.bind, hnode] at h
          exact Or.inl (congrArg _ (Except.error.inj h))
      | ok node? =>
          simp only [bind, Except.bind, hnode] at h
          cases node? with
          | none => cases h
          | some node =>
              refine Or.inr ⟨node, rfl, ?_⟩
              cases hvalue : node.value with
              | error other =>
                  simp only [hvalue] at h
                  exact congrArg _ (Except.error.inj h)
              | ok v =>
                  simp only [hvalue] at h
                  split at h
                  · cases h
                  · split at h
                    · cases h
                    · cases h
                  · cases h

/-- A node without a value is what the fields cannot be read of. -/
theorem readFields_of_value (hscan : Token.scan t = .ok tokens)
    (hnode : Node.ofTokens tokens = .ok (some node)) (h : node.value = .error fault) :
    Yaml.readFields t = .error fault := by
  unfold Yaml.readFields
  rw [hscan]
  simp only [bind, Except.bind, hnode, h]

/-- What the fields of a text cannot be read of is that it is malformed, or it
is not foreseen. -/
theorem unforeseen_of_readFields (h : Yaml.readFields (plainLines t) = .error fault)
    (hother : fault ≠ .malformed) : Unforeseen (Utf8.encode t) := by
  rcases readFields_error h with hscan | ⟨tokens, hscan, hnode | ⟨node, hnode, hvalue⟩⟩
  · have hmet := Yaml.gives_scan (plainLines t)
    rw [hscan] at hmet
    cases hmet with
    | error hmet =>
        cases hmet with
        | malformed => exact absurd rfl hother
        | character => exact .escape rfl hscan
        | number => exact .version rfl hscan
  · have honly := Yaml.onlyMalformed_ofTokens tokens
    rw [hnode] at honly
    cases honly with
    | error hmalformed => exact absurd hmalformed hother
  · obtain ⟨part, hpart, ⟨hmalformed, -⟩ | ⟨-, tag, word, rfl, hmisspelt⟩⟩ :=
      Node.exists_blamed node hvalue
    · exact absurd hmalformed hother
    · exact .misspelt ⟨t, tokens, rfl, hscan, hnode⟩ hpart hmisspelt

-- ============================================================= loading

/-- A file that can be read is one that is there, and its settings are those of
its bytes. -/
theorem load_of_read (h : files.read path = .ok bytes) :
    load files path = ((Utf8.decode bytes).mapError fun what => .undecodable (reported what)).bind
      (ofText path) := by
  have hexists : files.exists? path = .ok true := by
    unfold Files.Tree.exists? Files.Tree.check
    cases hstat : files.stat path with
    | ok node => rfl
    | error fault =>
        unfold Files.Tree.read at h
        rw [hstat] at h
        cases h
  unfold load
  rw [hexists, h]
  dsimp only
  cases Utf8.decode bytes with
  | error what => rfl
  | ok t => rfl

theorem load_of_text (h : files.read path = .ok (Utf8.encode t)) :
    load files path = ofText path t := by
  rw [load_of_read h, Utf8.decode_encode]
  rfl

/-- Bytes that are no text are no settings. -/
theorem load_of_undecodable (h : files.read path = .ok bytes)
    (hbytes : ∀ t, bytes ≠ Utf8.encode t) :
    ∃ what, load files path = .error (.undecodable what) := by
  cases hdecode : Utf8.decode bytes with
  | ok t => exact absurd (Utf8.decode_eq_ok_iff.mp hdecode) (hbytes t)
  | error what =>
      rw [load_of_read h, hdecode]
      exact ⟨_, rfl⟩

/-- Settings that are loaded are valid, also where there is no file. -/
theorem valid_of_load (h : load files path = .ok s) : Valid s := by
  have hchecked {t : Text} (htext : ofText path t = .ok s) : Valid s := by
    unfold ofText at htext
    split at htext
    · cases htext
    · cases htext
    · cases htext
    · rename_i fields hfields
      split at htext
      · rename_i settings hcheck
        exact valid_iff_check.mpr ⟨fields, Except.ok.inj htext ▸ hcheck⟩
      · cases htext
  unfold load at h
  split at h
  · cases h
  · exact Except.ok.inj h ▸ valid_default
  · split at h
    · cases h
    · split at h
      · cases h
      · exact hchecked h

/-- A text comes to settings, is refused as one that cannot be used, or is not
foreseen. -/
theorem ofText_error (h : ofText path t = .error why) :
    (Run.Failure.settings why).kind? = some .config ∨ Unforeseen (Utf8.encode t) := by
  unfold ofText at h
  split at h
  · exact Or.inl (Except.error.inj h ▸ rfl)
  · rename_i fault hother hfields
    exact Or.inr (unforeseen_of_readFields hfields fun hmalformed => hother hmalformed)
  · exact Or.inl (Except.error.inj h ▸ rfl)
  · split at h
    · cases h
    · exact Or.inl (Except.error.inj h ▸ rfl)

/-- So is a file. -/
theorem load_error (hfile : files.read path = .ok bytes) (h : load files path = .error why) :
    (Run.Failure.settings why).kind? = some .config ∨ Unforeseen bytes := by
  cases hdecode : Utf8.decode bytes with
  | error what =>
      refine Or.inr (.undecodable fun t ht => ?_)
      rw [Utf8.decode_eq_ok_iff.mpr ht] at hdecode
      cases hdecode
  | ok t =>
      obtain rfl := Utf8.decode_eq_ok_iff.mp hdecode
      rw [load_of_text hfile] at h
      exact ofText_error h

/-- Where everything is sound but a scalar is misspelt, loading fails of a
value. -/
theorem load_of_misspelt (hfile : files.read path = .ok bytes)
    (hdocument : IsDocument bytes node) (hsound : node.Sound) (hmisspelt : ¬ node.Spelt) :
    ∃ fault, load files path = .error (.value fault) := by
  obtain ⟨t, tokens, rfl, hscan, hnode⟩ := hdocument
  cases hvalue : node.value with
  | ok v => exact absurd (Node.exists_value_iff.mp ⟨v, hvalue⟩).2 hmisspelt
  | error fault =>
      have hother := hsound.ne_malformed hvalue
      refine ⟨fault, ?_⟩
      rw [load_of_text hfile]
      unfold ofText
      rw [readFields_of_value hscan hnode hvalue]
      cases fault with
      | malformed => exact absurd rfl hother
      | noCharacter | notBool | emptyNumber | notInteger | tooLong | notNumber | tooManyPlaces
        | notTimestamp | noMoment => rfl

/-- The exit code of a run without settings. -/
theorem code_of_unsettled {i : Run.Invocation} (h : i.settings = .error why) :
    i.exit.2.code = (Run.Failure.settings why).exitCode := by
  rw [(Run.Invocation.exit_of_unsettled h).1]
  rfl

/-- Whatever the bytes of a file are, if none of what is listed is the matter
with them, there are valid settings in it, or loading it fails of what is
foreseen of settings; and settings that are loaded are always valid. But bytes
that are no text, and documents in which a scalar is misspelt and nothing else
is wrong, fail of no kind. A run without settings changes nothing and ends with
exit code 2 in the one case and with 1 in the other. -/
theorem load_settled (hfile : files.read path = .ok bytes) :
    (¬ Unforeseen bytes →
      (∃ s, load files path = .ok s ∧ Valid s)
      ∨ ∃ why, load files path = .error why
        ∧ (Run.Failure.settings why).kind? = some .config)
    ∧ (∀ s, load files path = .ok s → Valid s)
    ∧ ((∀ t, bytes ≠ Utf8.encode t)
        ∨ (∃ node, IsDocument bytes node ∧ node.Sound ∧ ¬ node.Spelt) →
      ∃ why, load files path = .error why ∧ (Run.Failure.settings why).kind? = none)
    ∧ ∀ (i : Run.Invocation) why, i.settings = load files path →
        load files path = .error why →
        i.exit.1 = i.world
          ∧ (¬ Unforeseen bytes → i.exit.2.code = 2)
          ∧ ((Run.Failure.settings why).kind? = none → i.exit.2.code = 1) := by
  refine ⟨fun hnone => ?_, fun s => valid_of_load, ?_, fun i why hsettings hwhy => ?_⟩
  · cases hload : load files path with
    | ok s => exact Or.inl ⟨s, rfl, valid_of_load hload⟩
    | error why =>
        exact Or.inr ⟨why, rfl, (load_error hfile hload).resolve_right hnone⟩
  · rintro (hbytes | ⟨node, hdocument, hsound, hmisspelt⟩)
    · obtain ⟨what, hload⟩ := load_of_undecodable hfile hbytes
      exact ⟨_, hload, rfl⟩
    · obtain ⟨fault, hload⟩ := load_of_misspelt hfile hdocument hsound hmisspelt
      exact ⟨_, hload, rfl⟩
  · have hunsettled := hsettings.trans hwhy
    rw [code_of_unsettled hunsettled]
    unfold Run.Failure.exitCode
    refine ⟨congrArg Prod.fst (Run.Invocation.exit_of_unsettled hunsettled).1,
      fun hnone => ?_, fun hkind => ?_⟩
    · rw [(load_error hfile hwhy).resolve_right hnone]
      rfl
    · rw [hkind]
      rfl

/-- A file with these bytes, and nothing else. -/
def fileOf (bytes : Bytes) : Files.Tree :=
  (Files.Tree.empty.write (.ofText "c.yaml") bytes Files.plainMode).toOption.getD .empty

/-- A number where a section should be is refused, and nothing about it is
unforeseen. -/
theorem load_settled_number :
    (fileOf (Utf8.encode "http: 3")).read (.ofText "c.yaml") = .ok (Utf8.encode "http: 3")
      ∧ ¬ Unforeseen (Utf8.encode "http: 3")
      ∧ ∃ why, load (fileOf (Utf8.encode "http: 3")) (.ofText "c.yaml") = .error why
        ∧ (Run.Failure.settings why).kind? = some .config := by
  have hfile : (fileOf (Utf8.encode "http: 3")).read (.ofText "c.yaml")
      = .ok (Utf8.encode "http: 3") := by
    rfl
  have hscan : (Token.scan (plainLines "http: 3")).toOption
      = some [.blockMapping, .key, .scalar "http" true, .value, .scalar "3" true, .blockEnd] := by
    decide +kernel
  have hforeseen : ¬ Unforeseen (Utf8.encode "http: 3") := by
    cases htokens : Token.scan (plainLines "http: 3") with
    | error fault =>
        rw [htokens] at hscan
        cases hscan
    | ok tokens =>
        rw [htokens] at hscan
        obtain rfl := Option.some.inj hscan
        exact not_unforeseen ⟨"http: 3", _, rfl, htokens, rfl⟩ rfl
  have hload : (load (fileOf (Utf8.encode "http: 3")) (.ofText "c.yaml")).toOption = none := by
    decide +kernel
  refine ⟨hfile, hforeseen, ((load_settled hfile).1 hforeseen).resolve_left ?_⟩
  rintro ⟨s, hs, -⟩
  rw [hs] at hload
  cases hload

/-- One byte that begins no character is no text: loading it comes to no settings,
but does not fail of what is foreseen of them, and a run ends with exit code
1. -/
theorem undecodable_unforeseen :
    (fileOf [0xff]).read (.ofText "c.yaml") = .ok [0xff]
      ∧ ¬ ((∃ s, load (fileOf [0xff]) (.ofText "c.yaml") = .ok s ∧ Valid s)
        ∨ ∃ why, load (fileOf [0xff]) (.ofText "c.yaml") = .error why
          ∧ (Run.Failure.settings why).kind? = some .config)
      ∧ ∃ i : Run.Invocation, i.settings = load (fileOf [0xff]) (.ofText "c.yaml")
        ∧ i.exit.2.code = 1 := by
  have hload : load (fileOf [0xff]) (.ofText "c.yaml")
      = .error (.undecodable ⟨0xff, 0, 1, .start⟩) := by
    rfl
  refine ⟨rfl, ?_, ⟨⟨some "http://x/", none, none, "", none, some (.ofText "c.yaml"), false⟩,
    .check, none, { Run.Invocation.webOnly "http://x/" [] with files := fileOf [0xff] }⟩, rfl, rfl⟩
  rintro (⟨s, hs, -⟩ | ⟨why, hwhy, hkind⟩)
  · rw [hload] at hs
    cases hs
  · rw [hload] at hwhy
    rw [← Except.error.inj hwhy] at hkind
    cases hkind

end FeedSieve.Settings
