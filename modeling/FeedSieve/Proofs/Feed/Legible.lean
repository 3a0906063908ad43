/-
What can be written as a document at all.

A written feed is a document only if all of its characters are legal. Names,
numbers and the date on which it is made always are (`legible_mail`). So it
comes down to the texts that a feed and its items bring along
(`legal_document_iff`).
-/
import FeedSieve.Proofs.Feed.Reread
import FeedSieve.Proofs.Text.Numerals

namespace FeedSieve.Feed

open Calendar (Moment)
open Xml (Node)

variable {name t : Text} {attributes : List (Text × Text)} {children nodes more : List Node}

/-- All of its characters may stand in a document. -/
def Legible (t : Text) : Prop := ∀ c ∈ t, Xml.isChar c = true

instance (t : Text) : Decidable (Legible t) := List.decidableBAll _ t

@[simp] theorem legible_nil : Legible [] := fun c hc => by cases hc

-- ======================================================== own texts

theorem legible_append {u : Text} : Legible (t ++ u) ↔ Legible t ∧ Legible u :=
  List.forall_mem_append

/-- Texts put together are legible if each of them is. -/
private theorem legible_concat {parts : List Text} (h : ∀ t ∈ parts, Legible t) :
    Legible (Text.concat parts) := fun c hc => by
  obtain ⟨t, ht, hc⟩ := List.mem_flatten.mp hc
  exact h t ht c hc

private theorem isChar_of_isPlainDigit {c : Char} (h : Text.isPlainDigit c = true) :
    Xml.isChar c = true := by
  simp only [Text.isPlainDigit, Bool.and_eq_true, decide_eq_true_eq, Char.le_def,
    UInt32.le_iff_toNat_le] at h
  have hfirst : '0'.val.toNat = 48 := rfl
  have hlast : '9'.val.toNat = 57 := rfl
  have hrange : 32 ≤ c.toNat ∧ c.toNat ≤ 55295 := by
    unfold Char.toNat
    omega
  simp [Xml.isChar, Xml.inRanges, hrange]

private theorem legible_ofNat (n : Nat) : Legible (Text.ofNat n) := fun _ hc =>
  isChar_of_isPlainDigit (Text.isPlainDigit_of_mem_ofNat hc)

/-- Numbers are legible. -/
private theorem legible_ofInt (i : Int) : Legible (Text.ofInt i) := by
  cases i with
  | ofNat n => exact legible_ofNat n
  | negSucc n => exact List.forall_mem_cons.mpr ⟨by decide, legible_ofNat (n + 1)⟩

private theorem legible_padded (width n : Nat) : Legible (Text.padded width n) := by
  refine legible_append.mpr ⟨fun c hc => ?_, legible_ofNat n⟩
  obtain rfl := List.eq_of_mem_replicate hc
  decide

private theorem legible_offsetText (seconds : Int) : Legible (Moment.offsetText "" seconds) := by
  refine legible_concat ?_
  simp only [List.forall_mem_cons]
  refine ⟨?_, legible_padded _ _, legible_nil, legible_padded _ _, ?_, fun t ht => by cases ht⟩
  · split <;> decide
  · split
    · exact legible_nil
    · exact legible_padded _ _

private theorem legible_getD {texts : List Text} (h : ∀ t ∈ texts, Legible t) (i : Nat) :
    Legible (texts.getD i []) := by
  rw [List.getD_eq_getElem?_getD]
  cases hi : texts[i]? with
  | none => exact legible_nil
  | some t => exact h t (List.mem_of_getElem? hi)

/-- Dates in mail form are legible. -/
theorem legible_mail (m : Moment) : Legible m.mail := by
  have hweekdays : ∀ t ∈ Moment.weekdayNames, Legible t := by decide
  have hmonths : ∀ t ∈ Moment.monthNames, Legible t := by decide
  have hclock : Legible m.clock := by
    refine legible_concat ?_
    simp only [List.forall_mem_cons]
    exact ⟨legible_padded _ _, by decide, legible_padded _ _, by decide, legible_padded _ _,
      fun t ht => by cases ht⟩
  refine legible_concat ?_
  simp only [List.forall_mem_cons]
  refine ⟨legible_getD hweekdays _, by decide, legible_padded _ _, by decide,
    legible_getD hmonths _, by decide, legible_padded _ _, by decide, hclock, by decide, ?_,
    fun t ht => by cases ht⟩
  -- the place on the clock's zone is marked unknown, or it is written
  split
  · decide
  · exact legible_offsetText _

-- =========================================================== elements

/-- An element is legal if its attributes and what is in it are. -/
private theorem legal_element_iff : (Node.element name attributes children).Legal
    ↔ (∀ a ∈ attributes, Legible a.2) ∧ ∀ child ∈ children, child.Legal := by
  refine ⟨fun h => ⟨fun a ha => h.value ha, fun child hchild => h.child hchild⟩, ?_⟩
  rintro ⟨hvalues, hchildren⟩ t ht
  rcases List.mem_append.mp ht with ht | ht
  · obtain ⟨a, ha, rfl⟩ := List.mem_map.mp ht
    exact hvalues a ha
  · obtain ⟨child, hchild, ht⟩ := Xml.mem_contentsAll.mp ht
    exact hchildren child hchild t ht

private theorem legal_text_iff : (Node.text t).Legal ↔ Legible t :=
  ⟨fun h => h t List.mem_cons_self, fun h _ hu => List.mem_singleton.mp hu ▸ h⟩

private theorem legal_leaf_iff : (leaf name t).Legal ↔ Legible t := by
  simp [leaf, legal_element_iff, legal_text_iff]

/-- An element that is left out for want of a text is legal. -/
private theorem legal_leaf?_iff {o : Option Text} :
    (∀ child ∈ leaf? name o, child.Legal) ↔ ∀ t ∈ o.toList, Legible t := by
  rcases o with _ | _ | ⟨c, t⟩
  · simp [leaf?]
  · simp [leaf?]
  · simp [leaf?, legal_leaf_iff]

-- =============================================================== feeds

/-- The texts of an item that are written. -/
def Item.texts (item : Item) : List Text :=
  [item.title, item.description] ++ item.link.toList ++ item.guid.toList ++ item.published.toList
    ++ ((given item.enclosureUrl).map fun url => url :: item.enclosureType.toList).getD []

/-- The texts of a feed that are written under a title, but for its items. -/
def Channel.texts (source : Channel) (title : Text) : List Text :=
  [title, source.link, source.description] ++ source.language.toList ++ source.copyright.toList
    ++ source.managingEditor.toList ++ source.pubDate.toList ++ source.categories

private theorem legal_dateNode_iff (item : Item) :
    (∀ child ∈ dateNode item, child.Legal) ↔ ∀ t ∈ item.published.toList, Legible t := by
  rw [dateNode_eq, legal_leaf?_iff, Item.dated]
  rcases item.published with _ | _ | ⟨c, t⟩
  · simp [legible_mail]
  · simp [legible_mail]
  · rfl

private theorem legal_guidNode_iff (item : Item) :
    (∀ child ∈ guidNode item, child.Legal) ↔ ∀ t ∈ item.guid.toList, Legible t := by
  have hmark (marked : Prop) [Decidable marked] : ∀ a ∈ (if marked then [] else
      [("isPermaLink".toList, "false".toList)]), Legible a.2 := by
    split <;> decide
  rw [guidNode_eq]
  rcases item.guid with _ | _ | ⟨c, t⟩
  · exact iff_of_true (fun child h => by cases h) fun t h => by cases h
  · exact iff_of_true (fun child h => by cases h) fun t h => List.mem_singleton.mp h ▸ legible_nil
  · rw [given_cons, Option.map_some, Option.toList_some, Option.toList_some,
      List.forall_mem_singleton, List.forall_mem_singleton, legal_element_iff,
      List.forall_mem_singleton, legal_text_iff]
    exact and_iff_right (hmark _)

private theorem legal_enclosureNode_iff (item : Item) :
    (∀ child ∈ enclosureNode item, child.Legal)
      ↔ ∀ t ∈ ((given item.enclosureUrl).map fun url => url :: item.enclosureType.toList).getD [],
        Legible t := by
  rw [enclosureNode_eq]
  cases given item.enclosureUrl with
  | none => simp
  | some url =>
      rcases item.enclosureType with _ | _ | ⟨c, t⟩ <;>
        simp [legal_element_iff, legible_ofInt]

/-- An item can be written if its texts are legible. -/
private theorem legal_itemNode_iff (item : Item) :
    (itemNode item).Legal ↔ ∀ t ∈ item.texts, Legible t := by
  show (Node.element "item" [] (itemNodes item)).Legal ↔ _
  simp only [legal_element_iff, itemNodes, Item.texts, List.forall_mem_append, legal_leaf?_iff,
    legal_guidNode_iff, legal_dateNode_iff, legal_enclosureNode_iff]
  simp [and_assoc, and_left_comm]

variable {source : Channel} {items : List Item} {title : Text} {now : Moment}

/-- A feed can be written if its texts and those of its items are legible. -/
theorem legal_document_iff : (document source items title now).Legal
    ↔ (∀ t ∈ source.texts title, Legible t) ∧ ∀ item ∈ items, ∀ t ∈ item.texts, Legible t := by
  have hversion : Legible ['2', '.', '0'] := by decide
  have hgenerator : Legible Product.generator := by decide
  have hcategories : (∀ child ∈ source.categories.flatMap
      (fun category => leaf? "category" (some category)), child.Legal)
      ↔ ∀ t ∈ source.categories, Legible t := by
    simp only [List.forall_mem_flatMap, legal_leaf?_iff, Option.toList_some, List.mem_singleton,
      forall_eq]
  have hitems : (∀ child ∈ items.map itemNode, child.Legal)
      ↔ ∀ item ∈ items, ∀ t ∈ item.texts, Legible t := by
    simp only [List.forall_mem_map, legal_itemNode_iff]
  show (Node.element "rss" [("version", "2.0")]
    [.element "channel" [] (channelNodes source items title now)]).Legal ↔ _
  simp only [legal_element_iff, channelNodes, Channel.texts, List.forall_mem_append,
    List.forall_mem_cons, legal_leaf?_iff, legal_leaf_iff, hcategories, hitems]
  simp [hversion, hgenerator, legible_mail, and_assoc]

end FeedSieve.Feed
