/-
Nodes and their values.

A scalar stands for a value of its sort if it is the spelling of one; if it
is not, that is no fault of the document (`scalarValue_error`). A
collection has to be of a sort that there is, and the keys of a mapping
have to be scalars; if they are not, the document is malformed. So what a
node fails of is to be blamed on something within it (`exists_blamed`), and
a node has a value exactly if all that is within it is in order
(`exists_value_iff`).
-/
import FeedSieve.Yaml.Value
import FeedSieve.Proofs.Yaml.Composed

namespace FeedSieve.Yaml

open Lax (Value)
open Number (Double)

variable {α β : Type} {tag : Tag} {t : Text} {fault : Fault} {node part : Node} {nodes : List Node}
  {v : Value}

-- ============================================================= scalars

/-- What fails of something else than a malformed document. -/
def OnlyOfValue (x : Except Fault α) : Prop := Gives (fun _ => True) (· ≠ .malformed) x

theorem OnlyOfValue.bind {x : Except Fault α} {f : α → Except Fault β} (hx : OnlyOfValue x)
    (hf : ∀ a, OnlyOfValue (f a)) : OnlyOfValue (x >>= f) :=
  Gives.bind hx fun a _ => hf a

theorem OnlyOfValue.map {x : Except Fault α} (hx : OnlyOfValue x) (g : α → β) :
    OnlyOfValue (x.map g) :=
  Gives.map hx fun _ _ => trivial

theorem OnlyOfValue.ite {c : Prop} [Decidable c] {x y : Except Fault α} (hx : OnlyOfValue x)
    (hy : OnlyOfValue y) : OnlyOfValue (if c then x else y) :=
  Gives.ite hx hy

theorem onlyOfValue_ok (a : α) : OnlyOfValue (.ok a) := .ok trivial

theorem onlyOfValue_error (h : fault ≠ .malformed) : OnlyOfValue (.error fault : Except Fault α) :=
  .error h

theorem OnlyOfValue.mapM {f : β → Except Fault α} (h : ∀ b, OnlyOfValue (f b)) (l : List β) :
    OnlyOfValue (l.mapM f) := by
  induction l with
  | nil => exact onlyOfValue_ok _
  | cons b l ih =>
      rw [List.mapM_cons]
      exact (h b).bind fun _ => ih.bind fun _ => onlyOfValue_ok _

theorem onlyOfValue_boolValue (t : Text) : OnlyOfValue (boolValue t) :=
  .ite (onlyOfValue_ok _) (.ite (onlyOfValue_ok _) (onlyOfValue_error (by simp)))

theorem onlyOfValue_inBase (base : Nat) (word : Text) : OnlyOfValue (inBase base word) :=
  .ite (onlyOfValue_ok _) (onlyOfValue_error (by simp))

theorem onlyOfValue_decimal (word : Text) : OnlyOfValue (decimal word) := by
  unfold decimal
  split
  · exact onlyOfValue_ok _
  · exact onlyOfValue_error (by simp)
  · exact onlyOfValue_error (by simp)

theorem onlyOfValue_magnitude (word : Text) : OnlyOfValue (magnitude word) := by
  unfold magnitude
  split
  · exact onlyOfValue_error (by simp)
  · exact onlyOfValue_ok _
  · exact onlyOfValue_inBase _ _
  · exact onlyOfValue_inBase _ _
  · exact onlyOfValue_inBase _ _
  · exact .ite ((OnlyOfValue.mapM onlyOfValue_decimal _).bind fun _ => onlyOfValue_ok _)
      (onlyOfValue_decimal _)

theorem onlyOfValue_intValue (t : Text) : OnlyOfValue (intValue t) := by
  unfold intValue
  split
  · exact onlyOfValue_error (by simp)
  · exact (onlyOfValue_magnitude _).map _
  · exact onlyOfValue_magnitude _
  · exact onlyOfValue_magnitude _

theorem onlyOfValue_sumInSixties (parts : List Double) (sum : Double) (base : Nat) :
    OnlyOfValue (sumInSixties sum base parts) := by
  induction parts generalizing sum base with
  | nil => exact onlyOfValue_ok _
  | cons part parts ih =>
      refine OnlyOfValue.bind ?_ fun next => ih next _
      exact .ite (onlyOfValue_error (by simp)) (onlyOfValue_ok _)

theorem onlyOfValue_floatPart (word : Text) : OnlyOfValue (floatPart word) := by
  unfold floatPart
  split
  · exact onlyOfValue_ok _
  · exact onlyOfValue_error (by simp)

theorem onlyOfValue_floatValue (t : Text) : OnlyOfValue (floatValue t) := by
  unfold floatValue
  refine .ite (onlyOfValue_error (by simp))
    (.ite (onlyOfValue_ok _) (.ite (onlyOfValue_ok _) (.ite ?_ ?_)))
  · exact (OnlyOfValue.mapM onlyOfValue_floatPart _).bind fun parts =>
      (onlyOfValue_sumInSixties ..).bind fun _ => onlyOfValue_ok _
  · exact (onlyOfValue_floatPart _).bind fun _ => onlyOfValue_ok _

/-- A point in time that does not exist is not the document's fault. -/
theorem onlyOfValue_noMoment (why : Text) :
    OnlyOfValue (.error (.noMoment why) : Except Fault α) :=
  onlyOfValue_error (by simp)

theorem onlyOfValue_checkDate (year month day : Nat) : OnlyOfValue (checkDate year month day) :=
  .ite (onlyOfValue_noMoment _) (.ite (onlyOfValue_noMoment _)
    (.ite (onlyOfValue_noMoment _) (onlyOfValue_ok _)))

theorem onlyOfValue_checkZone (sign : Char) (hours minutes : Nat) :
    OnlyOfValue (checkZone sign hours minutes) := by
  unfold checkZone
  extract_lets size
  -- the size is compared with a number of seconds that is not to be unfolded
  generalize size = n
  exact .ite (onlyOfValue_ok _) (onlyOfValue_noMoment _)

theorem onlyOfValue_checkTimestamp (t : Text) : OnlyOfValue (checkTimestamp t) := by
  have hclock (hour minute second : Nat) : OnlyOfValue (do
      if 23 < hour then throw (.noMoment "hour must be in 0..23")
      if 59 < minute then throw (.noMoment "minute must be in 0..59")
      if 59 < second then throw (.noMoment "second must be in 0..59")) :=
    .ite (onlyOfValue_noMoment _) (.ite (onlyOfValue_noMoment _)
      (.ite (onlyOfValue_noMoment _) (onlyOfValue_ok _)))
  unfold checkTimestamp
  split
  · exact onlyOfValue_error (by simp)
  · dsimp only
    split
    · exact onlyOfValue_checkDate ..
    · split
      · refine OnlyOfValue.bind ?_ fun _ => OnlyOfValue.bind ?_ fun _ => hclock _ _ _
        · exact onlyOfValue_checkZone _ _ _
        · exact onlyOfValue_checkDate _ _ _
      · refine OnlyOfValue.bind ?_ fun _ => hclock _ _ _
        exact onlyOfValue_checkDate _ _ _

/-- A day that there is not fails of that. -/
example : checkTimestamp "2021-02-30" = .error (.noMoment "day is out of range for month") := rfl

/-- A scalar that is not the spelling of a value of its sort. Whatever is
written is a text, and nothing if it is meant to be. -/
inductive Misspelt : Tag → Text → Prop where
  | bool {t : Text} (h : ∀ b, boolValue t ≠ .ok b) : Misspelt .bool t
  | int {t : Text} (h : ∀ i, intValue t ≠ .ok i) : Misspelt .int t
  | float {t : Text} (h : ∀ d, floatValue t ≠ .ok d) : Misspelt .float t
  | timestamp {t : Text} (h : ∀ u, checkTimestamp t ≠ .ok u) : Misspelt .timestamp t

/-- A scalar that is misspelt has no value. -/
theorem Misspelt.value_ne (h : Misspelt tag t) : scalarValue tag t ≠ .ok v := by
  have hmap {α : Type} {x : Except Fault α} {g : α → Value} (hx : ∀ a, x ≠ .ok a) :
      x.map g ≠ .ok v := by
    cases x with
    | error fault => exact fun hv => by cases hv
    | ok a => exact absurd rfl (hx a)
  cases h with
  | bool h => exact hmap h
  | int h => exact hmap h
  | float h => exact hmap h
  | timestamp h => exact hmap h

/-- What fails is not misspelt for being malformed. -/
private theorem OnlyOfValue.of_error {x : Except Fault α} {g : α → Value} (hx : OnlyOfValue x)
    (h : x.map g = .error fault) : (∀ a, x ≠ .ok a) ∧ fault ≠ .malformed := by
  cases hx with
  | ok _ => cases h
  | error hother => exact ⟨fun a ha => (by cases ha), Except.error.inj h ▸ hother⟩

-- =============================================================== parts

namespace Node

/-- What is within a node: itself, and what is within its members, or its keys
and their values. -/
inductive Within (part : Node) : Node → Prop where
  | self : Within part part
  | member {tag : Tag} {members : List Node} {node : Node} (hmem : node ∈ members)
      (h : Within part node) : Within part (.sequence tag members)
  | key {tag : Tag} {keys values : List Node} {node : Node} (hmem : node ∈ keys)
      (h : Within part node) : Within part (.mapping tag keys values)
  | value {tag : Tag} {keys values : List Node} {node : Node} (hmem : node ∈ values)
      (h : Within part node) : Within part (.mapping tag keys values)

/-- A node of a sort that it can be of, with parts that it can have. -/
def IsSound : Node → Prop
  | scalar .binary t => (Base64.decode? t).isSome = true
  | scalar tag _ => tag.isScalar = true
  | sequence tag members => tag = .sequence ∨ tag = .pairs ∧ members.all isPair = true
  | mapping tag keys _ => (tag = .mapping ∨ tag = .set) ∧ keys.all isKey = true
  | inner _ => True

/-- Everything within a node is sound. -/
def Sound (node : Node) : Prop := ∀ part, Within part node → part.IsSound

/-- No scalar within a node is misspelt. -/
def Spelt (node : Node) : Prop := ∀ tag t, Within (scalar tag t) node → ¬ Misspelt tag t

/-- A scalar fails because it is misspelt, or because it is not sound. -/
theorem scalarValue_error (h : scalarValue tag t = .error fault) :
    Misspelt tag t ∧ fault ≠ .malformed ∨ fault = .malformed ∧ ¬ (scalar tag t).IsSound := by
  cases tag with
  | null | text => cases h
  | bool => exact Or.inl ((onlyOfValue_boolValue t).of_error h |>.imp_left .bool)
  | int => exact Or.inl ((onlyOfValue_intValue t).of_error h |>.imp_left .int)
  | float => exact Or.inl ((onlyOfValue_floatValue t).of_error h |>.imp_left .float)
  | timestamp => exact Or.inl ((onlyOfValue_checkTimestamp t).of_error h |>.imp_left .timestamp)
  | binary =>
      cases hdecode : Base64.decode? t with
      | some bytes =>
          rw [scalarValue, bytesOf, hdecode] at h
          cases h
      | none =>
          rw [scalarValue, bytesOf, hdecode] at h
          refine Or.inr ⟨(Except.error.inj h).symm, fun hsound => ?_⟩
          exact Bool.false_ne_true ((congrArg Option.isSome hdecode).symm.trans hsound)
  | sequence | mapping | set | pairs | merge | default | unknown =>
      exact Or.inr ⟨(Except.error.inj h).symm, fun hsound => Bool.false_ne_true hsound⟩

/-- A scalar that has a value is sound. -/
theorem scalarValue_sound (h : scalarValue tag t = .ok v) : (scalar tag t).IsSound := by
  cases tag with
  | null | bool | int | float | timestamp | text => exact rfl
  | binary =>
      cases hdecode : Base64.decode? t with
      | some bytes => exact congrArg Option.isSome hdecode
      | none =>
          rw [scalarValue, bytesOf, hdecode] at h
          cases h
  | sequence | mapping | set | pairs | merge | default | unknown => cases h

end Node

-- ============================================================== values

/-- Several readings come to something if both of them do. -/
private theorem exists_bind_iff {x : Except Fault α} {f : α → Except Fault β}
    {P : Prop} (hf : ∀ a, (∃ b, f a = .ok b) ↔ P) :
    (∃ b, (x >>= f) = .ok b) ↔ (∃ a, x = .ok a) ∧ P := by
  cases x with
  | error fault => simp [bind, Except.bind]
  | ok a => exact (hf a).trans (iff_and_self.mpr fun _ => ⟨a, rfl⟩)

/-- Nodes have values if each of them has one. -/
theorem exists_valuesOf_iff :
    (∃ values, valuesOf nodes = .ok values) ↔ ∀ node ∈ nodes, ∃ v, node.value = .ok v := by
  induction nodes with
  | nil => exact iff_of_true ⟨[], rfl⟩ fun _ h => absurd h List.not_mem_nil
  | cons node nodes ih =>
      rw [List.forall_mem_cons, ← ih, valuesOf]
      exact exists_bind_iff fun v => (exists_bind_iff fun values =>
        iff_of_true ⟨_, rfl⟩ trivial).trans (and_iff_left trivial)

namespace Node

variable {members keys values : List Node}

/-- A sequence has a value if its members have and it is sound. -/
theorem sequence_value_iff : (∃ v, (sequence tag members).value = .ok v)
    ↔ (∃ values, valuesOf members = .ok values) ∧ (sequence tag members).IsSound := by
  rw [Node.value]
  refine exists_bind_iff fun values => ?_
  unfold IsSound
  split
  case h_1 => exact iff_of_true ⟨_, rfl⟩ (Or.inl rfl)
  case h_2 =>
    split
    · rename_i hpairs
      exact iff_of_true ⟨_, rfl⟩ (Or.inr ⟨rfl, hpairs⟩)
    · rename_i hpairs
      refine iff_of_false (fun ⟨_, h⟩ => by cases h) ?_
      rintro (h | ⟨-, h⟩)
      · cases h
      · exact hpairs h
  case h_3 hsequence hpairs =>
    refine iff_of_false (fun ⟨_, h⟩ => by cases h) ?_
    rintro (rfl | ⟨rfl, -⟩)
    · exact hsequence rfl
    · exact hpairs rfl

/-- A mapping has a value if its keys and values have and it is sound. -/
theorem mapping_value_iff : (∃ v, (mapping tag keys values).value = .ok v)
    ↔ (∃ names, valuesOf keys = .ok names) ∧ (∃ vs, valuesOf values = .ok vs)
      ∧ (mapping tag keys values).IsSound := by
  rw [Node.value]
  refine exists_bind_iff fun names => exists_bind_iff fun vs => ?_
  unfold IsSound
  dsimp only
  split
  · rename_i hkeys
    refine iff_of_false (fun ⟨_, h⟩ => by cases h) fun ⟨_, h⟩ => ?_
    rw [h] at hkeys
    cases hkeys
  · rename_i hkeys
    have hall : keys.all isKey = true := by simpa using hkeys
    split
    case h_1 => exact iff_of_true ⟨_, rfl⟩ ⟨Or.inl rfl, hall⟩
    case h_2 => exact iff_of_true ⟨_, rfl⟩ ⟨Or.inr rfl, hall⟩
    case h_3 hmapping hset =>
      refine iff_of_false (fun ⟨_, h⟩ => by cases h) ?_
      rintro ⟨rfl | rfl, -⟩
      · exact hmapping rfl
      · exact hset rfl

/-- A sequence fails of what its members fail of, or because it is not sound. -/
theorem sequence_value_error (h : (sequence tag members).value = .error fault) :
    valuesOf members = .error fault
      ∨ fault = .malformed ∧ ¬ (sequence tag members).IsSound := by
  cases hmembers : valuesOf members with
  | error other =>
      rw [Node.value, hmembers] at h
      exact Or.inl (congrArg _ (Except.error.inj h))
  | ok values =>
      refine Or.inr ⟨?_, fun hsound => ?_⟩
      · rw [Node.value, hmembers] at h
        simp only [bind, Except.bind] at h
        split at h
        · cases h
        · split at h
          · cases h
          · exact (Except.error.inj h).symm
        · exact (Except.error.inj h).symm
      · obtain ⟨v, hv⟩ := sequence_value_iff.mpr ⟨⟨values, hmembers⟩, hsound⟩
        rw [h] at hv
        cases hv

/-- A mapping fails of what its keys or its values fail of, or because it is not
sound. -/
theorem mapping_value_error (h : (mapping tag keys values).value = .error fault) :
    valuesOf keys = .error fault ∨ valuesOf values = .error fault
      ∨ fault = .malformed ∧ ¬ (mapping tag keys values).IsSound := by
  cases hkeys : valuesOf keys with
  | error other =>
      rw [Node.value, hkeys] at h
      exact Or.inl (congrArg _ (Except.error.inj h))
  | ok names =>
      right
      cases hvalues : valuesOf values with
      | error other =>
          rw [Node.value, hkeys, hvalues] at h
          exact Or.inl (congrArg _ (Except.error.inj h))
      | ok vs =>
          refine Or.inr ⟨?_, fun hsound => ?_⟩
          · rw [Node.value, hkeys, hvalues] at h
            simp only [bind, Except.bind] at h
            split at h
            · exact (Except.error.inj h).symm
            · split at h
              · cases h
              · cases h
              · exact (Except.error.inj h).symm
          · obtain ⟨v, hv⟩ := mapping_value_iff.mpr ⟨⟨names, hkeys⟩, ⟨vs, hvalues⟩, hsound⟩
            rw [h] at hv
            cases hv

/-- What a node fails of is the fault of something within it: that is not sound
and makes the document malformed, or it is a scalar that is misspelt. -/
def Blamed (fault : Fault) (part : Node) : Prop :=
  fault = .malformed ∧ ¬ part.IsSound
    ∨ fault ≠ .malformed ∧ ∃ tag t, part = scalar tag t ∧ Misspelt tag t

mutual

/-- What a node fails of is the fault of something within it. -/
theorem exists_blamed : ∀ node : Node, node.value = .error fault →
    ∃ part, Within part node ∧ Blamed fault part
  | scalar tag t, h => by
      refine ⟨scalar tag t, .self, ?_⟩
      rcases scalarValue_error h with ⟨hmisspelt, hother⟩ | hunsound
      · exact Or.inr ⟨hother, tag, t, rfl, hmisspelt⟩
      · exact Or.inl hunsound
  | sequence tag members, h => by
      rcases sequence_value_error h with h | h
      · obtain ⟨node, hmem, part, hwithin, hblamed⟩ := exists_blamed_mem members h
        exact ⟨part, .member hmem hwithin, hblamed⟩
      · exact ⟨_, .self, Or.inl h⟩
  | mapping tag keys values, h => by
      rcases mapping_value_error h with h | h | h
      · obtain ⟨node, hmem, part, hwithin, hblamed⟩ := exists_blamed_mem keys h
        exact ⟨part, .key hmem hwithin, hblamed⟩
      · obtain ⟨node, hmem, part, hwithin, hblamed⟩ := exists_blamed_mem values h
        exact ⟨part, .value hmem hwithin, hblamed⟩
      · exact ⟨_, .self, Or.inl h⟩
  | inner isMapping, h => by cases h

/-- Of several nodes one is to blame. -/
theorem exists_blamed_mem : ∀ nodes : List Node, valuesOf nodes = .error fault →
    ∃ node ∈ nodes, ∃ part, Within part node ∧ Blamed fault part
  | [], h => by cases h
  | node :: nodes, h => by
      rw [valuesOf] at h
      cases hvalue : node.value with
      | error other =>
          rw [hvalue] at h
          rw [Except.error.inj h] at hvalue
          exact ⟨node, List.mem_cons_self, exists_blamed node hvalue⟩
      | ok v =>
          cases hvalues : valuesOf nodes with
          | error other =>
              rw [hvalue, hvalues] at h
              rw [Except.error.inj h] at hvalues
              obtain ⟨later, hmem, hlater⟩ := exists_blamed_mem nodes hvalues
              exact ⟨later, List.mem_cons_of_mem _ hmem, hlater⟩
          | ok values =>
              rw [hvalue, hvalues] at h
              cases h

end

/-- Where a node has a value, everything within it has one. -/
theorem Within.exists_value (h : Within part node) (hvalue : ∃ v, node.value = .ok v) :
    ∃ v, part.value = .ok v := by
  induction h with
  | self => exact hvalue
  | member hmem _ ih =>
      exact ih (exists_valuesOf_iff.mp (sequence_value_iff.mp hvalue).1 _ hmem)
  | key hmem _ ih =>
      exact ih (exists_valuesOf_iff.mp (mapping_value_iff.mp hvalue).1 _ hmem)
  | value hmem _ ih =>
      exact ih (exists_valuesOf_iff.mp (mapping_value_iff.mp hvalue).2.1 _ hmem)

/-- A node with a value is sound, and not a scalar that is misspelt. -/
theorem isSound_of_value (h : ∃ v, node.value = .ok v) :
    node.IsSound ∧ ∀ tag t, node = scalar tag t → ¬ Misspelt tag t := by
  cases node with
  | scalar tag t =>
      obtain ⟨v, hv⟩ := h
      refine ⟨scalarValue_sound hv, fun tag' t' heq hmisspelt => ?_⟩
      obtain ⟨rfl, rfl⟩ := Node.scalar.inj heq
      exact hmisspelt.value_ne hv
  | sequence tag members =>
      exact ⟨(sequence_value_iff.mp h).2, fun _ _ heq => by cases heq⟩
  | mapping tag keys values =>
      exact ⟨(mapping_value_iff.mp h).2.2, fun _ _ heq => by cases heq⟩
  | inner isMapping => exact ⟨trivial, fun _ _ heq => by cases heq⟩

/-- A node has a value if everything within it is sound and no scalar is
misspelt, and only then. -/
theorem exists_value_iff : (∃ v, node.value = .ok v) ↔ node.Sound ∧ node.Spelt := by
  constructor
  · intro h
    refine ⟨fun part hpart => (isSound_of_value (hpart.exists_value h)).1, fun tag t hpart => ?_⟩
    exact (isSound_of_value (hpart.exists_value h)).2 tag t rfl
  · rintro ⟨hsound, hspelt⟩
    cases hvalue : node.value with
    | ok v => exact ⟨v, rfl⟩
    | error fault =>
        obtain ⟨part, hwithin, ⟨-, hunsound⟩ | ⟨-, tag, t, rfl, hmisspelt⟩⟩ :=
          exists_blamed node hvalue
        · exact absurd (hsound part hwithin) hunsound
        · exact absurd hmisspelt (hspelt tag t hwithin)

/-- Where nothing is misspelt, a node without a value makes the document
malformed. -/
theorem Spelt.malformed (hspelt : node.Spelt) (h : node.value = .error fault) :
    fault = .malformed := by
  obtain ⟨part, hwithin, ⟨hfault, -⟩ | ⟨-, tag, t, rfl, hmisspelt⟩⟩ := exists_blamed node h
  · exact hfault
  · exact absurd hmisspelt (hspelt tag t hwithin)

/-- Where everything is sound, a node without a value does not. -/
theorem Sound.ne_malformed (hsound : node.Sound) (h : node.value = .error fault) :
    fault ≠ .malformed := by
  obtain ⟨part, hwithin, ⟨-, hunsound⟩ | ⟨hfault, -⟩⟩ := exists_blamed node h
  · exact absurd (hsound part hwithin) hunsound
  · exact hfault

end Node

end FeedSieve.Yaml
