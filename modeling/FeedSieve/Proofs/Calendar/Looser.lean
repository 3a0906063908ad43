/-
Times without minutes.

A day may stand in front of a time in the looser form, or a year, or nothing,
and the time may lack its minutes. What such a text looks like is said by
`LooseDay` and `NoMinute`, and it is read as nothing else
(`loose_eq_noMinute_iff`): what is in front could be longer or shorter only if
the time began with digits that it does not have.
-/
import FeedSieve.Calendar.Iso8601
import FeedSieve.Proofs.Text.Parts

namespace FeedSieve.Calendar.Iso8601

variable {t rest : Text} {count n : Nat}

-- ============================================================= digits

/-- Digits of any script, at least one and not more than `count`. -/
structure UpTo (count : Nat) (t : Text) : Prop where
  inhabited : t ≠ []
  short : t.length ≤ count
  digits : ∀ c ∈ t, Text.isDigit c = true

/-- A text that goes on with something else. -/
def Stops (t : Text) : Prop := ∀ c, t.head? = some c → Text.isDigit c = false

/-- Digits before something else are the ones that are looked at. -/
theorem takeWhile_take {a : Text} (ha : UpTo count a) (h : Stops rest) :
    ((a ++ rest).take count).takeWhile Text.isDigit = a := by
  rw [List.take_append, List.take_of_length_le ha.short]
  refine (Text.takeWhile_dropWhile_append ha.digits fun c hc => ?_).1
  cases rest with
  | nil =>
      rw [List.take_nil] at hc
      cases hc
  | cons d rest =>
      refine h c ?_
      cases hroom : count - a.length with
      | zero =>
          rw [hroom, List.take_zero] at hc
          cases hc
      | succ room =>
          rw [hroom, List.take_succ_cons] at hc
          exact hc

/-- What is looked at are the first digits. -/
theorem upTo_takeWhile_take (h : (t.take count).takeWhile Text.isDigit ≠ []) :
    UpTo count ((t.take count).takeWhile Text.isDigit)
      ∧ t = (t.take count).takeWhile Text.isDigit
        ++ t.drop ((t.take count).takeWhile Text.isDigit).length := by
  have hprefix := (List.takeWhile_prefix (p := Text.isDigit) (l := t.take count)).trans
    (List.take_prefix count t)
  refine ⟨⟨h, ?_, fun c hc => List.mem_takeWhile_imp hc⟩,
    (List.prefix_iff_eq_append.mp hprefix).symm⟩
  exact (List.takeWhile_prefix _).length_le.trans (List.length_take_le count t)

/-- Digits are read if something else follows them. -/
theorem upTo?_append {a : Text} (ha : UpTo count a) (h : Stops rest) :
    upTo? count (a ++ rest) = some (Text.digitsValue a, rest) := by
  unfold upTo?
  simp only [takeWhile_take ha h, List.isEmpty_iff, ha.inhabited, if_false, List.drop_left]

/-- What is read are digits. -/
theorem exists_of_upTo? (h : upTo? count t = some (n, rest)) : ∃ a, t = a ++ rest ∧ UpTo count a := by
  unfold upTo? at h
  simp only at h
  split at h
  · cases h
  · rename_i hsome
    obtain ⟨-, rfl⟩ := Prod.mk.inj (Option.some.inj h)
    rw [List.isEmpty_iff] at hsome
    obtain ⟨hdigits, htext⟩ := upTo_takeWhile_take hsome
    exact ⟨_, htext, hdigits⟩

/-- Nothing is read exactly where no digit stands in front. -/
theorem upTo?_eq_none_iff : upTo? (count + 1) t = none ↔ Stops t := by
  unfold upTo?
  simp only
  cases t with
  | nil => exact ⟨fun _ c hc => (by cases hc), fun _ => rfl⟩
  | cons c t =>
      rw [List.take_succ_cons, List.takeWhile_cons]
      cases hc : Text.isDigit c with
      | false => exact ⟨fun _ d hd => Option.some.inj hd ▸ hc, fun _ => rfl⟩
      | true =>
          refine ⟨fun h => (by cases h), fun h => ?_⟩
          rw [h c rfl] at hc
          cases hc

/-- Seconds with a colon before them, if they are there. -/
def Seconds (t : Text) : Prop := t = [] ∨ ∃ digits, t = ':' :: digits ∧ UpTo 2 digits

/-- The fraction of a second with a mark before it, if it is there. -/
def Fraction (t : Text) : Prop := t = [] ∨ ∃ mark digits, t = mark :: digits
  ∧ (mark = '.' ∨ mark = ',' ∨ mark = '|') ∧ UpTo 9 digits

/-- The end of a text, or of a line that ends it. -/
def Ending (t : Text) : Prop := t = [] ∨ t = ['\n']

/-- A time without minutes: the hour with a colon behind it, and whatever may
follow the minutes. -/
inductive NoMinute : Text → Prop
  | intro {space hour second fraction ending : Text} (hspace : space = [] ∨ space = [' '])
      (hhour : UpTo 2 hour) (hsecond : Seconds second) (hfraction : Fraction fraction)
      (hending : Ending ending) :
      NoMinute (space ++ (hour ++ ':' :: (second ++ (fraction ++ ending))))

/-- What is left behind the seconds, if they are there. -/
theorem looseSecond_spec (t : Text) : ∃ second, t = second ++ (looseSecond t).2 ∧ Seconds second := by
  unfold looseSecond
  split
  · rename_i rest
    cases h : upTo? 2 rest with
    | none => exact ⟨[], rfl, Or.inl rfl⟩
    | some read =>
        obtain ⟨second, after⟩ := read
        obtain ⟨digits, rfl, hdigits⟩ := exists_of_upTo? h
        exact ⟨':' :: digits, rfl, Or.inr ⟨digits, rfl, hdigits⟩⟩
  · exact ⟨[], rfl, Or.inl rfl⟩

/-- What is left behind the fraction, if it is there. -/
theorem looseFraction_spec (t : Text) :
    ∃ fraction, t = fraction ++ (looseFraction t).2 ∧ Fraction fraction := by
  unfold looseFraction
  split
  · rename_i c rest
    simp only
    split
    · rename_i hmark
      simp only [Bool.and_eq_true, Bool.or_eq_true, decide_eq_true_eq, Bool.not_eq_true',
        List.isEmpty_eq_false_iff, or_assoc] at hmark
      obtain ⟨hdigits, htext⟩ := upTo_takeWhile_take hmark.2
      refine ⟨c :: (rest.take 9).takeWhile Text.isDigit, ?_,
        Or.inr ⟨c, _, rfl, hmark.1, hdigits⟩⟩
      rw [List.cons_append, ← htext]
    · exact ⟨[], rfl, Or.inl rfl⟩
  · exact ⟨[], rfl, Or.inl rfl⟩

theorem isDone_iff : isDone t = true ↔ Ending t := by
  unfold isDone Ending
  rw [Bool.or_eq_true, List.isEmpty_iff, beq_iff_eq]

/-- Nothing else is read as a time without minutes. -/
theorem noMinute_of_looseTime? (h : looseTime? t = some .noMinute) : NoMinute t := by
  unfold looseTime? at h
  split at h
  · cases h
  · obtain ⟨⟨hour, afterHour⟩, hhour, h⟩ := Option.bind_eq_some_iff.mp h
    simp only at h
    split at h
    · rename_i afterColon
      simp only [Option.bind_eq_bind, Option.bind_some] at h
      obtain ⟨hourText, htext, hhour⟩ := exists_of_upTo? hhour
      obtain ⟨space, hspace, hspaced⟩ : ∃ space, (space = [] ∨ space = [' '])
          ∧ t = space ++ if t.head? = some ' ' then t.drop 1 else t := by
        split
        · rename_i hhead
          obtain ⟨rest, rfl⟩ := List.head?_eq_some_iff.mp hhead
          exact ⟨[' '], Or.inr rfl, rfl⟩
        · exact ⟨[], Or.inl rfl, rfl⟩
      split at h
      · cases h
      · rename_i hdone
        cases hminute : upTo? 2 afterColon with
        | some read =>
            unfold looseMinute at h
            rw [hminute] at h
            cases h
        | none =>
            have hnone : looseMinute afterColon = (none, afterColon) := by
              unfold looseMinute
              rw [hminute]
            rw [hnone] at hdone
            obtain ⟨second, hsecondText, hsecond⟩ := looseSecond_spec afterColon
            obtain ⟨fraction, hfractionText, hfraction⟩ :=
              looseFraction_spec (looseSecond afterColon).2
            have hending := isDone_iff.mp (by simpa using hdone)
            rw [hspaced, htext, hsecondText, hfractionText]
            exact .intro hspace hhour hsecond hfraction hending
    · cases h

/-- A mark stops digits. -/
theorem stops_cons {c : Char} (hc : Text.isDigit c = false) (t : Text) : Stops (c :: t) :=
  fun _ hd => Option.some.inj hd ▸ hc

/-- None of the marks is a digit. -/
theorem isDigit_mark : ∀ c ∈ [':', '.', ',', '|', '\n', ' '], Text.isDigit c = false := by
  have hall : [':', '.', ',', '|', '\n', ' '].all (!Text.isDigit ·) = true := by decide +kernel
  simpa only [List.all_eq_true, Bool.not_eq_true'] using hall

theorem Ending.stops (h : Ending t) : Stops t := by
  rcases h with rfl | rfl
  · exact fun c hc => by cases hc
  · exact stops_cons (isDigit_mark '\n' (by decide)) []

theorem Fraction.stops (h : Fraction t) (hrest : Stops rest) : Stops (t ++ rest) := by
  rcases h with rfl | ⟨mark, digits, rfl, rfl | rfl | rfl, -⟩
  · exact hrest
  · exact stops_cons (isDigit_mark _ (by decide)) _
  · exact stops_cons (isDigit_mark _ (by decide)) _
  · exact stops_cons (isDigit_mark _ (by decide)) _

theorem Seconds.stops (h : Seconds t) (hrest : Stops rest) : Stops (t ++ rest) := by
  rcases h with rfl | ⟨digits, rfl, -⟩
  · exact hrest
  · exact stops_cons (isDigit_mark ':' (by decide)) _

/-- A fraction is read to its end. -/
theorem Fraction.looseFraction {ending : Text} (h : Fraction t) (hending : Ending ending) :
    (Iso8601.looseFraction (t ++ ending)).2 = ending := by
  rcases h with rfl | ⟨mark, digits, rfl, hmark, hdigits⟩
  · rcases hending with rfl | rfl <;> rfl
  · have hmarked : (mark = '.' || mark = ',' || mark = '|') = true := by
      rcases hmark with rfl | rfl | rfl <;> rfl
    rw [List.cons_append, Iso8601.looseFraction]
    simp only [takeWhile_take hdigits hending.stops, hmarked, Bool.true_and]
    rw [if_pos (by simpa using hdigits.inhabited), List.drop_left]

/-- So are seconds. -/
theorem Seconds.looseSecond {fraction ending : Text} (h : Seconds t) (hfraction : Fraction fraction)
    (hending : Ending ending) :
    (Iso8601.looseSecond (t ++ (fraction ++ ending))).2 = fraction ++ ending := by
  rcases h with rfl | ⟨digits, rfl, hdigits⟩
  · rcases hfraction with rfl | ⟨mark, digits, rfl, rfl | rfl | rfl, -⟩
    · rcases hending with rfl | rfl <;> rfl
    · rfl
    · rfl
    · rfl
  · rw [List.cons_append, Iso8601.looseSecond,
      upTo?_append hdigits (hfraction.stops hending.stops)]
    rfl

/-- A time without minutes is read as one. -/
theorem NoMinute.looseTime? (h : NoMinute t) : Iso8601.looseTime? t = some .noMinute := by
  obtain @⟨space, hour, second, fraction, ending, hspace, hhour, hsecond, hfraction, hending⟩ := h
  have htail := hsecond.stops (hfraction.stops hending.stops)
  have hminute : looseMinute (second ++ (fraction ++ ending))
      = (none, second ++ (fraction ++ ending)) := by
    unfold looseMinute
    rw [upTo?_eq_none_iff.mpr htail]
  have hreadSecond := hsecond.looseSecond hfraction hending
  have hreadFraction := hfraction.looseFraction hending
  generalize second ++ (fraction ++ ending) = tail at htail hminute hreadSecond ⊢
  have hnotDone : isDone (space ++ (hour ++ ':' :: tail)) = false := by
    rw [← Bool.not_eq_true, isDone_iff]
    have hmem : ':' ∈ space ++ (hour ++ ':' :: tail) := by simp
    rintro (hnil | hline)
    · rw [hnil] at hmem
      cases hmem
    · rw [hline] at hmem
      exact absurd hmem (by decide)
  have hunspaced : (if (space ++ (hour ++ ':' :: tail)).head? = some ' '
      then (space ++ (hour ++ ':' :: tail)).drop 1 else space ++ (hour ++ ':' :: tail))
      = hour ++ ':' :: tail := by
    rcases hspace with rfl | rfl
    · obtain ⟨d, digits, hcons⟩ := List.exists_cons_of_ne_nil hhour.inhabited
      have hdigit := hhour.digits d (hcons ▸ List.mem_cons_self)
      rw [List.nil_append, if_neg]
      rw [hcons]
      intro hhead
      rw [Option.some.inj hhead, isDigit_mark ' ' (by decide)] at hdigit
      cases hdigit
    · rfl
  have hcolon := stops_cons (isDigit_mark ':' (by decide)) tail
  unfold Iso8601.looseTime?
  simp only [hnotDone, hunspaced, upTo?_append hhour hcolon, Option.bind_eq_bind,
    Option.bind_some, hminute, hreadSecond, hreadFraction, isDone_iff.mpr hending]
  rfl

/-- So many digits of any script. -/
structure Exactly (count : Nat) (t : Text) : Prop where
  length : t.length = count
  digits : ∀ c ∈ t, Text.isDigit c = true

theorem Exactly.ne_nil (h : Exactly (count + 1) t) : t ≠ [] := by
  rintro rfl
  cases h.length

/-- They are read. -/
theorem exactly?_append {a : Text} (h : Exactly count a) (rest : Text) :
    exactly? count (a ++ rest) = some (Text.digitsValue a, rest) := by
  unfold exactly?
  rw [← h.length, List.take_left, List.drop_left]
  simp only [decide_true, Bool.true_and]
  rw [if_pos (List.all_eq_true.mpr h.digits)]

/-- What is read are so many digits. -/
theorem exists_of_exactly? (h : exactly? count t = some (n, rest)) :
    ∃ a, t = a ++ rest ∧ Exactly count a := by
  unfold exactly? at h
  simp only at h
  split at h
  · rename_i hread
    rw [Bool.and_eq_true, decide_eq_true_eq] at hread
    obtain ⟨-, rfl⟩ := Prod.mk.inj (Option.some.inj h)
    exact ⟨_, (List.take_append_drop count t).symm, hread.1, List.all_eq_true.mp hread.2⟩
  · cases h

/-- Something else among them is in the way. -/
theorem exactly?_eq_none {a : Text} {c : Char} (hshort : a.length < count)
    (hc : Text.isDigit c = false) (rest : Text) : exactly? count (a ++ c :: rest) = none := by
  cases h : exactly? count (a ++ c :: rest) with
  | none => rfl
  | some read =>
      obtain ⟨digits, htext, hdigits⟩ := exists_of_exactly? h
      have hmem : c ∈ digits := by
        have htake := congrArg (List.take count) htext
        rw [← hdigits.length, List.take_left] at htake
        rw [← htake, hdigits.length]
        obtain ⟨room, rfl⟩ := Nat.exists_eq_add_of_lt hshort
        rw [Nat.add_assoc, List.take_length_add_append, List.take_succ_cons]
        exact List.mem_append_right _ List.mem_cons_self
      rw [hdigits.digits c hmem] at hc
      cases hc

/-- A mark that may stand between the numbers of a day. -/
def DayMark (t : Text) : Prop := t = [] ∨ t = ['/'] ∨ t = [':']

/-- What may stand in front of the time: a day with or without marks, a year,
or nothing. -/
inductive LooseDay : Text → Prop
  | none : LooseDay []
  | year {year : Text} (hyear : Exactly 4 year) : LooseDay year
  | day {year mark month mark' day : Text} (hyear : Exactly 4 year) (hmark : DayMark mark)
      (hmonth : Exactly 2 month) (hmark' : DayMark mark') (hday : Exactly 2 day) :
      LooseDay (year ++ (mark ++ (month ++ (mark' ++ day))))

theorem withoutMark_spec (t : Text) : ∃ mark, DayMark mark ∧ t = mark ++ withoutMark t := by
  unfold withoutMark
  split
  · split
    · rename_i hmark
      rw [Bool.or_eq_true, decide_eq_true_eq, decide_eq_true_eq] at hmark
      rcases hmark with rfl | rfl
      · exact ⟨['/'], Or.inr (Or.inl rfl), rfl⟩
      · exact ⟨[':'], Or.inr (Or.inr rfl), rfl⟩
    · exact ⟨[], Or.inl rfl, rfl⟩
  · exact ⟨[], Or.inl rfl, rfl⟩

/-- A mark before digits is passed over. -/
theorem withoutMark_append {mark a : Text} (hmark : DayMark mark) (hne : a ≠ [])
    (ha : ∀ c ∈ a, Text.isDigit c = true) (rest : Text) :
    withoutMark (mark ++ (a ++ rest)) = a ++ rest := by
  rcases hmark with rfl | rfl | rfl
  · obtain ⟨c, a, rfl⟩ := List.exists_cons_of_ne_nil hne
    have hslash : Text.isDigit '/' = false := by decide +kernel
    have hc := ha c List.mem_cons_self
    rw [List.nil_append, List.cons_append, withoutMark, if_neg]
    rw [Bool.or_eq_true, decide_eq_true_eq, decide_eq_true_eq]
    rintro (rfl | rfl)
    · rw [hslash] at hc
      cases hc
    · rw [isDigit_mark ':' (by decide)] at hc
      cases hc
  · rfl
  · rfl

theorem looseMoment_eq_noMinute_iff {date : Option Date} {time : LooseTime} :
    looseMoment date time = .noMinute ↔ time = .noMinute := by
  unfold looseMoment
  split
  · exact ⟨fun _ => rfl, fun _ => rfl⟩
  · split <;> simp
  · split <;> simp

/-- With a month and a day the minutes are missing behind these. -/
theorem exists_of_looseDay? (h : looseDay? t = some .noMinute) :
    ∃ day time, t = day ++ time ∧ LooseDay day ∧ NoMinute time := by
  unfold looseDay? at h
  obtain ⟨⟨year, afterYear⟩, hreadYear, h⟩ := Option.bind_eq_some_iff.mp h
  obtain ⟨⟨month, afterMonth⟩, hreadMonth, h⟩ := Option.bind_eq_some_iff.mp h
  obtain ⟨⟨day, afterDay⟩, hreadDay, h⟩ := Option.bind_eq_some_iff.mp h
  obtain ⟨time, htime, h⟩ := Option.bind_eq_some_iff.mp h
  obtain rfl := looseMoment_eq_noMinute_iff.mp (Option.some.inj h)
  obtain ⟨yearText, htext, hyear⟩ := exists_of_exactly? hreadYear
  obtain ⟨mark, hmark, hmarked⟩ := withoutMark_spec afterYear
  obtain ⟨monthText, hmonthText, hmonth⟩ := exists_of_exactly? hreadMonth
  obtain ⟨mark', hmark', hmarked'⟩ := withoutMark_spec afterMonth
  obtain ⟨dayText, hdayText, hday⟩ := exists_of_exactly? hreadDay
  refine ⟨_, afterDay, ?_, .day hyear hmark hmonth hmark' hday, noMinute_of_looseTime? htime⟩
  rw [htext, hmarked, hmonthText, hmarked', hdayText]
  simp only [List.append_assoc]

/-- With a year alone they are missing behind that. -/
theorem exists_of_looseYear? (h : looseYear? t = some .noMinute) :
    ∃ day time, t = day ++ time ∧ LooseDay day ∧ NoMinute time := by
  unfold looseYear? at h
  obtain ⟨⟨year, afterYear⟩, hreadYear, h⟩ := Option.bind_eq_some_iff.mp h
  obtain ⟨time, htime, h⟩ := Option.bind_eq_some_iff.mp h
  obtain rfl := looseMoment_eq_noMinute_iff.mp (Option.some.inj h)
  obtain ⟨yearText, htext, hyear⟩ := exists_of_exactly? hreadYear
  exact ⟨yearText, afterYear, htext, .year hyear, noMinute_of_looseTime? htime⟩

/-- Without a day there is just the time. -/
theorem exists_of_looseClock? (h : looseClock? t = some .noMinute) :
    ∃ day time, t = day ++ time ∧ LooseDay day ∧ NoMinute time := by
  unfold looseClock? at h
  obtain ⟨time, htime, h⟩ := Option.bind_eq_some_iff.mp h
  obtain rfl := looseMoment_eq_noMinute_iff.mp (Option.some.inj h)
  exact ⟨[], t, rfl, .none, noMinute_of_looseTime? htime⟩

/-- Digits are missing where there are none. -/
theorem exactly?_of_stops (h : Stops t) : exactly? (count + 1) t = none := by
  cases t with
  | nil => rfl
  | cons c t => exact exactly?_eq_none (a := []) (Nat.succ_pos count) (h c rfl) t

/-- A time without minutes begins with a space, or with two digits at most
before a colon, behind which there is none. -/
theorem NoMinute.cases_start (h : NoMinute t) : (∃ rest, t = ' ' :: rest)
    ∨ ∃ hour rest, t = hour ++ ':' :: rest ∧ UpTo 2 hour ∧ Stops rest := by
  obtain ⟨rfl | rfl, hhour, hsecond, hfraction, hending⟩ := h
  · exact Or.inr ⟨_, _, rfl, hhour, hsecond.stops (hfraction.stops hending.stops)⟩
  · exact Or.inl ⟨_, rfl⟩

/-- No year is found at its front. -/
theorem NoMinute.exactly?_four (h : NoMinute t) : exactly? 4 t = none := by
  rcases h.cases_start with ⟨rest, rfl⟩ | ⟨hour, rest, rfl, hhour, -⟩
  · exact exactly?_of_stops (stops_cons (isDigit_mark ' ' (by decide)) rest)
  · exact exactly?_eq_none (Nat.lt_of_le_of_lt hhour.short (by decide))
      (isDigit_mark ':' (by decide)) rest

/-- No month and day are found there. -/
theorem NoMinute.looseDay?_append {year : Text} (h : NoMinute t) (hyear : Exactly 4 year) :
    looseDay? (year ++ t) = none := by
  have hmonth : exactly? 2 (withoutMark t) = none ∨ ∃ month rest,
      exactly? 2 (withoutMark t) = some (month, rest)
        ∧ exactly? 2 (withoutMark rest) = none := by
    rcases h.cases_start with ⟨rest, rfl⟩ | ⟨hour, rest, rfl, hhour, hrest⟩
    · exact Or.inl (exactly?_of_stops (stops_cons (isDigit_mark ' ' (by decide)) rest))
    · have hunmarked : withoutMark (hour ++ ':' :: rest) = hour ++ ':' :: rest :=
        withoutMark_append (Or.inl rfl) hhour.inhabited hhour.digits _
      rw [hunmarked]
      rcases Nat.lt_or_ge hour.length 2 with hone | htwo
      · exact Or.inl (exactly?_eq_none hone (isDigit_mark ':' (by decide)) rest)
      · have hdigits : Exactly 2 hour := ⟨Nat.le_antisymm hhour.short htwo, hhour.digits⟩
        exact Or.inr ⟨_, ':' :: rest, exactly?_append hdigits _, exactly?_of_stops (t := rest) hrest⟩
  unfold looseDay?
  rw [exactly?_append hyear]
  simp only [Option.bind_eq_bind, Option.bind_some]
  rcases hmonth with hnone | ⟨month, rest, hmonth, hday⟩
  · rw [hnone]
    rfl
  · rw [hmonth]
    simp only [Option.bind_some, hday, Option.bind_none]

/-- Whichever reader it is that finds no minutes, there is such a time. -/
theorem exists_of_loose (h : loose t = .noMinute) :
    ∃ day time, t = day ++ time ∧ LooseDay day ∧ NoMinute time := by
  unfold loose at h
  cases hday : looseDay? t with
  | some read =>
      rw [hday] at h
      exact exists_of_looseDay? (hday.trans (congrArg some h))
  | none =>
      rw [hday] at h
      cases hyear : looseYear? t with
      | some read =>
          rw [hyear] at h
          exact exists_of_looseYear? (hyear.trans (congrArg some h))
      | none =>
          rw [hyear] at h
          cases hclock : looseClock? t with
          | some read =>
              rw [hclock] at h
              exact exists_of_looseClock? (hclock.trans (congrArg some h))
          | none =>
              rw [hclock] at h
              cases h

/-- Without a day, no reader that wants one comes first. -/
theorem NoMinute.loose (h : NoMinute t) : Iso8601.loose t = .noMinute := by
  have hday : looseDay? t = none := by
    unfold looseDay?
    rw [h.exactly?_four]
    rfl
  have hyear : looseYear? t = none := by
    unfold looseYear?
    rw [h.exactly?_four]
    rfl
  have hclock : looseClock? t = some .noMinute := by
    unfold looseClock?
    rw [h.looseTime?]
    rfl
  rw [Iso8601.loose, hday, hyear, hclock]
  rfl

/-- Behind a year, the reader that wants a day gives up. -/
theorem NoMinute.loose_year {year : Text} (h : NoMinute t) (hyear : Exactly 4 year) :
    Iso8601.loose (year ++ t) = .noMinute := by
  have hread : looseYear? (year ++ t) = some .noMinute := by
    unfold looseYear?
    rw [exactly?_append hyear]
    simp only [Option.bind_eq_bind, Option.bind_some, h.looseTime?]
    rfl
  rw [Iso8601.loose, h.looseDay?_append hyear, hread]
  rfl

/-- Behind a day it does not. -/
theorem NoMinute.loose_day {year mark month mark' day : Text} (h : NoMinute t)
    (hyear : Exactly 4 year) (hmark : DayMark mark) (hmonth : Exactly 2 month)
    (hmark' : DayMark mark') (hday : Exactly 2 day) :
    Iso8601.loose (year ++ (mark ++ (month ++ (mark' ++ day))) ++ t) = .noMinute := by
  have hread : looseDay? (year ++ (mark ++ (month ++ (mark' ++ day))) ++ t) = some .noMinute := by
    unfold looseDay?
    simp only [List.append_assoc, exactly?_append hyear, Option.bind_eq_bind,
      Option.bind_some, withoutMark_append hmark hmonth.ne_nil hmonth.digits,
      exactly?_append hmonth, withoutMark_append hmark' hday.ne_nil hday.digits,
      exactly?_append hday, h.looseTime?]
    rfl
  rw [Iso8601.loose, hread]
  rfl

/-- The looser form lacks the minutes exactly if it is a time that does,
behind a day or not. -/
theorem loose_eq_noMinute_iff :
    loose t = .noMinute ↔ ∃ day time, t = day ++ time ∧ LooseDay day ∧ NoMinute time := by
  refine ⟨exists_of_loose, ?_⟩
  rintro ⟨day, time, rfl, hday, htime⟩
  cases hday with
  | none => exact htime.loose
  | year hyear => exact htime.loose_year hyear
  | day hyear hmark hmonth hmark' hday => exact htime.loose_day hyear hmark hmonth hmark' hday

end FeedSieve.Calendar.Iso8601
