/-
Both forms of a moment are read again.

Everything in them is made of numerals of a fixed width, and such a numeral
is read off the front of whatever follows it (`Iso8601.plain?_padded`). So the
interchange form is read from left to right, one lemma for the day, one for
the time and one for the zone (`Iso8601.standard?_iso`). The mail form is read
by its words, which are the six it was made of (`MailDate.read_mail`).

The reader of mail dates takes almost any five words for a date, but what has
only two is none (`MailDate.read_of_few_words`).
-/
import FeedSieve.Calendar.Iso8601
import FeedSieve.Calendar.MailDate
import FeedSieve.Proofs.Calendar.Numbered
import FeedSieve.Proofs.Text.Numerals

namespace FeedSieve.Calendar

open Text (padded PlainDigits padded_ne_nil plainDigits_padded length_padded)

variable {n width : Nat} {rest t : Text} {seconds : Int}

-- =============================================================== parts

namespace Moment

/-- The parts of a time are in their bounds. -/
theorem clock_bounds (m : Moment) :
    m.hour < 24 ∧ m.minute < 60 ∧ m.second < 60 ∧ m.micro < 1000000 := by
  have hday := m.in_day
  unfold dayMicros at hday
  unfold hour minute second micro
  omega

/-- A time is made of its parts. -/
theorem micros_eq (m : Moment) :
    m.micros = ((m.hour * 60 + m.minute) * 60 + m.second) * 1000000 + m.micro := by
  unfold hour minute second micro
  omega

/-- The moment at the beginning of the second. -/
def wholeSeconds (m : Moment) : Moment :=
  { m with
    micros := m.micros - m.micro
    in_day := Nat.lt_of_le_of_lt (Nat.sub_le _ _) m.in_day }

/-- It is earlier by the fraction. -/
theorem instant_wholeSeconds (m : Moment) : m.wholeSeconds.instant = m.instant - m.micro := by
  have hmicros := m.micros_eq
  unfold wholeSeconds instant
  simp only
  omega

/-- A moment is put together from its parts. -/
theorem ofClock?_parts (m : Moment) :
    ofClock? m.date m.hour m.minute m.second m.micro m.offset = some m := by
  have hmicros := m.micros_eq
  unfold ofClock?
  rw [dif_pos m.clock_bounds]
  simp only [← hmicros]

/-- Without the fraction it is the beginning of the second. -/
theorem ofClock?_wholeSeconds (m : Moment) :
    ofClock? m.date m.hour m.minute m.second 0 m.offset = some m.wholeSeconds := by
  obtain ⟨hhour, hminute, hsecond, -⟩ := m.clock_bounds
  have hmicros : m.micros - m.micro
      = ((m.hour * 60 + m.minute) * 60 + m.second) * 1000000 + 0 := by
    have := m.micros_eq
    omega
  unfold ofClock? wholeSeconds
  rw [dif_pos ⟨hhour, hminute, hsecond, by decide⟩]
  simp only [hmicros]

end Moment

/-- The numbers of a day are in their bounds. -/
theorem Date.lt_bounds (d : Date) : d.year < 10 ^ 4 ∧ d.month < 10 ^ 2 ∧ d.day < 10 ^ 2 := by
  have hyear : d.year ≤ lastYear := by
    have h := d.exists_day
    unfold names at h
    simp only [Bool.and_eq_true, decide_eq_true_eq] at h
    exact h.1.1.2
  obtain ⟨-, -, hmonth, -, hday⟩ := d.bounds
  have hlength : monthLength d.year d.month ≤ 31 := by
    unfold monthLength
    split <;> first | decide | (split <;> decide)
  unfold lastYear at hyear
  omega

/-- A day is the one that its numbers name. -/
theorem Date.ofParts?_parts (d : Date) : Date.ofParts? d.year d.month d.day = some d := by
  unfold Date.ofParts?
  rw [dif_pos d.exists_day]

/-- A zone of whole minutes is written without seconds. -/
theorem Moment.offsetText_eq (sep : Text) (hwhole : 60 ∣ seconds) :
    Moment.offsetText sep seconds = (if seconds < 0 then '-' else '+')
      :: (padded 2 (seconds.natAbs / 3600) ++ (sep ++ padded 2 (seconds.natAbs / 60 % 60))) := by
  have hnone : seconds.natAbs % 60 = 0 := by omega
  unfold Moment.offsetText Text.concat
  simp only [hnone, if_true]
  split <;> simp

/-- There are no blanks in numerals. -/
theorem visible_padded (width n : Nat) : ∀ c ∈ padded width n, Text.isBlank c = false :=
  fun c hc => Text.isBlank_of_isPlainDigit (plainDigits_padded width n c hc)

/-- Nor are there in a time. -/
theorem Moment.visible_clock (m : Moment) : ∀ c ∈ m.clock, Text.isBlank c = false := by
  have hcolon : Text.isBlank ':' = false := by decide
  unfold Moment.clock Text.concat
  simp only [List.flatten_cons, List.flatten_nil, List.append_nil, List.forall_mem_append]
  exact ⟨visible_padded _ _, by simpa using hcolon, visible_padded _ _, by simpa using hcolon,
    visible_padded _ _⟩

/-- Nor in a zone. -/
theorem Moment.visible_offsetText (hwhole : 60 ∣ seconds) :
    ∀ c ∈ Moment.offsetText [] seconds, Text.isBlank c = false := by
  rw [Moment.offsetText_eq [] hwhole, List.nil_append, List.forall_mem_cons,
    List.forall_mem_append]
  refine ⟨?_, visible_padded _ _, visible_padded _ _⟩
  split <;> decide

-- ==================================================== interchange form

namespace Iso8601

/-- Plain digits are read off the front of a text. -/
theorem plain?_append (h : PlainDigits t) (value : Nat) (rest : Text) :
    plain? t.length value (t ++ rest) = some (Nat.ofDigitChars 10 t value, rest) := by
  induction t generalizing value with
  | nil => rfl
  | cons c t ih =>
      obtain ⟨hc, ht⟩ := List.forall_mem_cons.mp h
      rw [List.length_cons, List.cons_append, plain?, Text.plainDigit?, if_pos hc,
        Option.bind_some, ih ht]
      rfl

/-- So is a numeral of a fixed width. -/
theorem plain?_padded (hwidth : 0 < width) (h : n < 10 ^ width) (rest : Text) :
    plain? width 0 (padded width n ++ rest) = some (n, rest) := by
  have hdigits := plainDigits_padded width n
  have hread := plain?_append hdigits 0 rest
  rw [length_padded hwidth h, ← Text.digitsValue_eq hdigits, Text.digitsValue_padded] at hread
  exact hread

/-- A numeral begins with a digit. -/
theorem exists_padded (width n : Nat) :
    ∃ c t, padded width n = c :: t ∧ Text.isPlainDigit c = true := by
  obtain ⟨c, t, hcons⟩ := List.exists_cons_of_ne_nil (padded_ne_nil width n)
  exact ⟨c, t, hcons, plainDigits_padded width n c (hcons ▸ List.mem_cons_self)⟩

/-- The day is read. -/
theorem dateStart?_iso (d : Date) (rest : Text) :
    dateStart? (d.iso ++ rest) = some ⟨d, true, rest⟩ := by
  obtain ⟨hyear, hmonth, hday⟩ := d.lt_bounds
  have htext : d.iso ++ rest = padded 4 d.year
      ++ '-' :: (padded 2 d.month ++ '-' :: (padded 2 d.day ++ rest)) := by
    unfold Date.iso Text.concat
    simp
  have hread := plain?_padded (by decide) hmonth ('-' :: (padded 2 d.day ++ rest))
  have hlast := plain?_padded (by decide) hday rest
  obtain ⟨c, month, hcons, hdigit⟩ := exists_padded 2 d.month
  have hweek : c ≠ 'W' := by
    rintro rfl
    exact absurd hdigit (by decide)
  rw [htext]
  unfold dateStart?
  rw [plain?_padded (by decide) hyear]
  rw [hcons, List.cons_append] at hread ⊢
  simp [hweek, hread, hlast, d.ofParts?_parts]

/-- The fraction of a second as the interchange form has it. -/
def fractionText (micro : Nat) : Text := if micro = 0 then [] else '.' :: padded 6 micro

/-- It is read, if something else follows it. -/
theorem fraction?_fractionText (h : n < 1000000)
    (hrest : ∀ c, rest.head? = some c → Text.isPlainDigit c = false ∧ c ≠ '.' ∧ c ≠ ',') :
    fraction? (fractionText n ++ rest) = some (n, rest) := by
  unfold fractionText
  split
  · rename_i hnone
    subst hnone
    cases rest with
    | nil => rfl
    | cons c rest =>
        obtain ⟨-, hpoint, hcomma⟩ := hrest c rfl
        simp [fraction?, hpoint, hcomma]
  · have hdigits := plainDigits_padded 6 n
    have hlength : (padded 6 n).length = 6 := length_padded (by decide) h
    have htaken := (Text.takeWhile_dropWhile_append hdigits fun c hc => (hrest c hc).1).1
    have hvalue : microseconds (padded 6 n) = n := by
      unfold microseconds
      rw [List.take_append_of_le_length (by rw [hlength]), List.take_of_length_le (by rw [hlength]),
        Text.digitsValue_padded]
    rw [List.cons_append, fraction?, if_pos (by decide)]
    simp only
    rw [htaken, if_neg (by simp [padded_ne_nil]), List.drop_left, hvalue]

/-- The time is read. -/
theorem clock?_clock (m : Moment) (rest : Text)
    (hrest : ∀ c, rest.head? = some c → Text.isPlainDigit c = false ∧ c ≠ '.' ∧ c ≠ ',') :
    clock? (m.clock ++ (fractionText m.micro ++ rest))
      = some ⟨m.hour, m.minute, m.second, m.micro, some true, rest⟩ := by
  obtain ⟨hhour, hminute, hsecond, hmicro⟩ := m.clock_bounds
  have hread {n : Nat} (h : n < 60) (rest : Text) :
      plain? 2 0 (padded 2 n ++ rest) = some (n, rest) :=
    plain?_padded (by decide) (by omega) rest
  have htext : m.clock ++ (fractionText m.micro ++ rest) = padded 2 m.hour
      ++ ':' :: (padded 2 m.minute ++ ':' :: (padded 2 m.second
        ++ (fractionText m.micro ++ rest))) := by
    unfold Moment.clock Text.concat
    simp
  rw [htext]
  unfold clock?
  rw [hread (by omega)]
  simp [hread hminute, hread hsecond, fraction?_fractionText hmicro hrest]

/-- The zone is read. -/
theorem zone?_offsetText (hwhole : 60 ∣ seconds) (hnear : seconds.natAbs < 86400) :
    zone? (Moment.offsetText [':'] seconds) = some seconds := by
  have hhours : seconds.natAbs / 3600 < 10 ^ 2 := by omega
  have hminutes : seconds.natAbs / 60 % 60 < 10 ^ 2 := by omega
  have hsize : ((seconds.natAbs / 3600 : Nat) * 60 + (seconds.natAbs / 60 % 60 : Nat)) * 60
      = seconds.natAbs := by omega
  have hfirst := plain?_padded (by decide : 0 < 2) hhours
    (':' :: padded 2 (seconds.natAbs / 60 % 60))
  have hlast := plain?_padded (by decide : 0 < 2) hminutes []
  rw [List.append_nil] at hlast
  rw [Moment.offsetText_eq [':'] hwhole]
  generalize seconds.natAbs / 3600 = hours at hsize hfirst ⊢
  generalize seconds.natAbs / 60 % 60 = minutes at hsize hfirst hlast ⊢
  obtain ⟨c, digits, hcons, -⟩ := exists_padded 2 minutes
  rw [hcons] at hfirst hlast ⊢
  by_cases hsign : seconds < 0
  · have hvalue : -(((hours : Int) * 60 + minutes) * 60) = seconds := by omega
    simp [hsign, zone?, hfirst, hlast, hvalue]
  · have hvalue : ((hours : Int) * 60 + minutes) * 60 = seconds := by omega
    simp [hsign, zone?, hfirst, hlast, hvalue]

/-- The interchange form is read. -/
theorem standard?_iso {m : Moment} (hoffset : m.offset = some seconds) (hwhole : 60 ∣ seconds)
    (hnear : seconds.natAbs < 86400) : standard? m.iso = some m := by
  have htext : m.iso = m.date.iso
      ++ 'T' :: (m.clock ++ (fractionText m.micro ++ Moment.offsetText [':'] seconds)) := by
    unfold Moment.iso Text.concat fractionText
    rw [hoffset]
    simp
  have hclock := clock?_clock m (Moment.offsetText [':'] seconds) fun c hc => by
    rw [Moment.offsetText_eq [':'] hwhole] at hc
    obtain rfl := Option.some.inj hc
    split <;> decide
  have hmoment := m.ofClock?_parts
  rw [hoffset] at hmoment
  rw [htext]
  unfold standard?
  rw [dateStart?_iso]
  simp [hclock, zone?_offsetText hwhole hnear, hmoment]

end Iso8601

-- =========================================================== mail form

namespace MailDate

/-- What has few words is no mail date. -/
theorem read_of_few_words (h : (Text.words t).length < 3) : read t = .ok none := by
  have hfew : (withoutDayName (Text.words t)).length < 3 := by
    cases hwords : Text.words t with
    | nil => decide
    | cons first rest =>
        rw [hwords, List.length_cons] at h
        rw [withoutDayName]
        split
        · exact Nat.lt_of_succ_lt h
        · exact h
  have hnone : numbers? t = none := by
    unfold numbers?
    match hwords : withoutDayName (Text.words t), hfew with
    | [], _ => rfl
    | [a], _ => rfl
    | [a, b], _ => rfl
  unfold read
  rw [hnone]
  rfl

/-- A month is known by the name that it is written with. -/
theorem month?_monthNames {month : Nat} (h : 1 ≤ month) (h' : month ≤ 12) :
    month? (Moment.monthNames.getD (month - 1) []) = some month := by
  have hnames : ∀ i < 12, month? (Moment.monthNames.getD i []) = some (i + 1) := by decide
  obtain ⟨i, rfl⟩ := Nat.exists_eq_add_of_le' h
  exact hnames i (by omega)

/-- Digits and signs have no capitals. -/
theorem flatMap_capital (h : ∀ c ∈ t, Text.isPlainDigit c = true ∨ c = '+' ∨ c = '-') :
    t.flatMap capital = t := by
  have hdigit : ∀ n < 10, capital (Char.ofNat (0x30 + n)) = [Char.ofNat (0x30 + n)] := by decide
  have hsame : ∀ c ∈ t, capital c = [c] := by
    intro c hc
    rcases h c hc with hplain | rfl | rfl
    · obtain ⟨n, hn, rfl⟩ := Text.exists_plainDigit hplain
      exact hdigit n hn
    · rfl
    · rfl
  rw [List.flatMap_congr hsame]
  exact List.flatMap_singleton' t

/-- Hours and minutes written as one number. -/
theorem zoneSeconds_eq (hours : Nat) {minutes : Nat} (h : minutes < 60) :
    zoneSeconds (100 * hours + minutes : Nat) = (hours * 3600 + minutes * 60 : Nat)
      ∧ zoneSeconds (-((100 * hours + minutes : Nat) : Int))
        = -((hours * 3600 + minutes * 60 : Nat) : Int) := by
  unfold zoneSeconds
  dsimp only
  constructor
  · rw [if_neg (by omega)]
    omega
  · split <;> omega

/-- What begins with a sign names no zone, so it is the number that counts. -/
theorem zoneOffset?_signed {sign : Char} {number : Int} (hsign : sign = '-' ∨ sign = '+')
    (hplain : PlainDigits t) (hread : Text.integer (sign :: t) = .ok number)
    (hzero : number = 0 → sign ≠ '-') :
    zoneOffset? (sign :: t) = some (zoneSeconds number) := by
  have hcapital : (sign :: t).flatMap capital = sign :: t :=
    flatMap_capital (List.forall_mem_cons.mpr
      ⟨Or.inr hsign.symm, fun c hc => Or.inl (hplain c hc)⟩)
  have hunnamed : (zones.find? fun entry => entry.1.toList == sign :: t) = none := by
    have hletters : ∀ entry ∈ zones, entry.1.toList.head? ≠ some '-'
        ∧ entry.1.toList.head? ≠ some '+' := by decide
    refine List.find?_eq_none.mpr fun entry hentry hsame => ?_
    rw [beq_iff_eq] at hsame
    obtain ⟨hminus, hplus⟩ := hletters entry hentry
    rw [hsame] at hminus hplus
    rcases hsign with rfl | rfl
    · exact hminus rfl
    · exact hplus rfl
  unfold zoneOffset?
  simp only [hcapital, hunnamed, Text.integer?, hread, Except.toOption]
  split
  · rename_i hnone
    obtain rfl := Option.some.inj hnone
    rw [List.head?_cons, if_neg fun h => hzero rfl (Option.some.inj h)]
    rfl
  · rename_i hnumber
    rw [Option.some.inj hnumber]
  · contradiction

/-- A zone is read. -/
theorem zoneOffset?_offsetText (hwhole : 60 ∣ seconds) (hnear : seconds.natAbs < 86400) :
    zoneOffset? (Moment.offsetText [] seconds) = some seconds := by
  have hminutes : seconds.natAbs / 60 % 60 < 60 := by omega
  have hhours : seconds.natAbs / 3600 < 10 ^ 2 := by omega
  have hsize : seconds.natAbs / 3600 * 3600 + seconds.natAbs / 60 % 60 * 60 = seconds.natAbs := by
    omega
  rw [Moment.offsetText_eq [] hwhole]
  generalize seconds.natAbs / 3600 = hours at hhours hsize ⊢
  generalize seconds.natAbs / 60 % 60 = minutes at hminutes hsize ⊢
  have hplain : PlainDigits (padded 2 hours ++ padded 2 minutes) := fun c hc =>
    (List.mem_append.mp hc).elim (plainDigits_padded 2 hours c) (plainDigits_padded 2 minutes c)
  have hne : padded 2 hours ++ padded 2 minutes ≠ [] :=
    List.append_ne_nil_of_left_ne_nil (padded_ne_nil 2 hours) _
  have hlength : (padded 2 hours ++ padded 2 minutes).length = 4 := by
    rw [List.length_append, length_padded (by decide) hhours,
      length_padded (by decide) (by omega)]
  have hvalue : Text.digitsValue (padded 2 hours ++ padded 2 minutes) = 100 * hours + minutes := by
    rw [Text.digitsValue_append (plainDigits_padded _ _) (plainDigits_padded _ _),
      Text.digitsValue_padded, Text.digitsValue_padded, length_padded (by decide) (by omega)]
    rfl
  have hread {sign : Char} (hsign : sign = '-' ∨ sign = '+') :=
    Text.integer_signed hsign hne hplain
  simp only [hlength, hvalue, if_neg (by decide : ¬ Text.maxDigits < 4)] at hread
  obtain ⟨hahead, hbehind⟩ := zoneSeconds_eq hours hminutes
  rw [List.nil_append]
  by_cases hneg : seconds < 0
  · rw [if_pos hneg, zoneOffset?_signed (Or.inl rfl) hplain (hread (Or.inl rfl)) fun hnone => ?_]
    · rw [if_pos rfl, hbehind]
      exact congrArg some (by omega)
    · rw [if_pos rfl] at hnone
      omega
  · rw [if_neg hneg, zoneOffset?_signed (Or.inr rfl) hplain (hread (Or.inr rfl))
      fun _ => by decide]
    rw [if_neg (by decide), hahead]
    exact congrArg some (by omega)

/-- A numeral of a fixed width is read. -/
theorem integer?_padded (hwidth : 0 < width) (hshort : width ≤ Text.maxDigits)
    (h : n < 10 ^ width) : Text.integer? (padded width n) = some (n : Int) := by
  unfold Text.integer?
  rw [Text.integer_digits (padded_ne_nil width n) (plainDigits_padded width n),
    length_padded hwidth h, if_neg (by omega), Text.digitsValue_padded]
  rfl

/-- There is no comma behind plain digits. -/
theorem withoutComma_append_padded (start : Text) (width n : Nat) :
    withoutComma (start ++ padded width n) = start ++ padded width n := by
  unfold withoutComma
  rw [if_neg fun hlast => ?_]
  rw [List.getLast?_append_of_ne_nil _ (padded_ne_nil width n)] at hlast
  exact absurd (plainDigits_padded width n _ (List.mem_of_getLast? hlast)) (by decide)

/-- The words of a time are its numerals. -/
theorem clockWords?_clock (m : Moment) : clockWords? (withoutComma m.clock)
    = some (padded 2 m.hour, padded 2 m.minute, padded 2 m.second) := by
  have hcomma : withoutComma m.clock = m.clock := by
    have htext : m.clock = padded 2 m.hour ++ ':' :: (padded 2 m.minute ++ [':'])
        ++ padded 2 m.second := by
      unfold Moment.clock Text.concat
      simp
    rw [htext]
    exact withoutComma_append_padded _ 2 m.second
  have htext : m.clock
      = Text.joinWith [':'] [padded 2 m.hour, padded 2 m.minute, padded 2 m.second] := by
    unfold Moment.clock Text.concat
    simp [Text.joinWith]
  have hcolon (n : Nat) : ':' ∉ padded 2 n := fun hmem =>
    absurd (plainDigits_padded 2 n _ hmem) (by decide)
  have hsplit : Text.splitOn ':' (Text.joinWith [':']
      [padded 2 m.hour, padded 2 m.minute, padded 2 m.second])
      = [padded 2 m.hour, padded 2 m.minute, padded 2 m.second] :=
    Text.splitOn_joinWith (by simp) (by simp [hcolon])
  rw [hcomma, htext]
  unfold clockWords?
  rw [hsplit]

/-- The words of the mail form. -/
theorem words_mail {m : Moment} (hoffset : m.offset = some seconds) (hwhole : 60 ∣ seconds) :
    ∃ day, Text.words m.mail = [day ++ [','], padded 2 m.date.day,
      Moment.monthNames.getD (m.date.month - 1) [], padded 4 m.date.year, m.clock,
      Moment.offsetText [] seconds] := by
  have hday : ∀ c ∈ Moment.weekdayNames.getD m.date.weekday [], Text.isBlank c = false := by
    have hall : ∀ i < 7, (Moment.weekdayNames.getD i []).all (!Text.isBlank ·) = true := by decide
    have hname := hall m.date.weekday (Nat.mod_lt _ (by decide))
    simpa only [List.all_eq_true, Bool.not_eq_true'] using hname
  have hmonth : Moment.monthNames.getD (m.date.month - 1) [] ≠ []
      ∧ ∀ c ∈ Moment.monthNames.getD (m.date.month - 1) [], Text.isBlank c = false := by
    obtain ⟨-, -, hmonth, -, -⟩ := m.date.bounds
    have hall : ∀ i < 12, Moment.monthNames.getD i [] ≠ []
        ∧ (Moment.monthNames.getD i []).all (!Text.isBlank ·) = true := by decide
    have hname := hall (m.date.month - 1) (by omega)
    simpa only [List.all_eq_true, Bool.not_eq_true'] using hname
  have hclock : m.clock ≠ [] :=
    List.append_ne_nil_of_left_ne_nil (padded_ne_nil 2 m.hour) _
  have hzone : Moment.offsetText [] seconds ≠ [] := by
    rw [Moment.offsetText_eq [] hwhole]
    exact List.cons_ne_nil _ _
  have htext : m.mail = Text.joinWith " " [Moment.weekdayNames.getD m.date.weekday [] ++ [','],
      padded 2 m.date.day, Moment.monthNames.getD (m.date.month - 1) [], padded 4 m.date.year,
      m.clock, Moment.offsetText [] seconds] := by
    unfold Moment.mail Text.concat
    rw [hoffset]
    simp [Text.joinWith]
  refine ⟨Moment.weekdayNames.getD m.date.weekday [], ?_⟩
  rw [htext]
  apply Text.words_joinWith
  · simp only [List.forall_mem_cons]
    exact ⟨by simp, padded_ne_nil _ _, hmonth.1, padded_ne_nil _ _, hclock, hzone,
      fun _ hnone => by cases hnone⟩
  · simp only [List.forall_mem_cons, List.forall_mem_append]
    exact ⟨⟨hday, by decide, fun _ hnone => by cases hnone⟩, visible_padded _ _, hmonth.2,
      visible_padded _ _, m.visible_clock,
      Moment.visible_offsetText hwhole,
      fun _ hnone => by cases hnone⟩

/-- Numbers fit the machine if each of them is one of 32 bits. -/
theorem fitMachine_eq_ok_iff {numbers : List Int} : fitMachine numbers = .ok ()
    ↔ ∀ n ∈ numbers, -(Number.shortEnd : Int) ≤ n ∧ n < Number.shortEnd := by
  induction numbers with
  | nil => simp [fitMachine]
  | cons n rest ih =>
      have hwide : (Number.shortEnd : Int) ≤ Number.longEnd := by decide
      rw [fitMachine, List.forall_mem_cons, ← ih]
      split
      · rename_i hlong
        rw [Bool.or_eq_true, decide_eq_true_eq, decide_eq_true_eq] at hlong
        simp only [reduceCtorEq, false_iff, not_and]
        omega
      · split
        · simp only [reduceCtorEq, false_iff, not_and]
          omega
        · split
          · simp only [reduceCtorEq, false_iff, not_and]
            omega
          · exact ⟨fun h => ⟨by omega, h⟩, fun h => h.2⟩

/-- The numbers of the mail form, if two digits do not stand for the year. -/
theorem numbers?_mail {m : Moment} (hyear : 100 ≤ m.date.year)
    (hoffset : m.offset = some seconds) (hwhole : 60 ∣ seconds)
    (hnear : seconds.natAbs < 86400) : numbers? m.mail
      = some ⟨m.date.year, m.date.month, m.date.day, m.hour, m.minute, m.second,
        some seconds⟩ := by
  obtain ⟨day, hwords⟩ := words_mail hoffset hwhole
  obtain ⟨-, hmonth, hmonth', -, -⟩ := m.date.bounds
  obtain ⟨hlast, -, hday⟩ := m.date.lt_bounds
  obtain ⟨hhour, hminute, hsecond, -⟩ := m.clock_bounds
  have hfive : withoutDayName (Text.words m.mail) = [padded 2 m.date.day,
      Moment.monthNames.getD (m.date.month - 1) [], padded 4 m.date.year, m.clock,
      Moment.offsetText [] seconds] := by
    rw [hwords, withoutDayName, if_pos (by simp)]
  have hnamed : (Moment.monthNames.getD (m.date.month - 1) []).isEmpty = false := by
    have hall : ∀ i < 12, (Moment.monthNames.getD i []).isEmpty = false := by decide
    exact hall _ (by omega)
  have hnumeral (width n : Nat) : (padded width n).isEmpty = false := by
    simp [padded_ne_nil]
  have hnocolon : ((padded 4 m.date.year).drop 1).contains ':' = false := by
    rw [← Bool.not_eq_true, List.contains_iff_mem]
    exact fun hmem => absurd (plainDigits_padded 4 _ _ (List.mem_of_mem_drop hmem)) (by decide)
  have hcomma (width n : Nat) : withoutComma (padded width n) = padded width n :=
    withoutComma_append_padded [] width n
  obtain ⟨c, digits, hcons, hdigit⟩ := Iso8601.exists_padded 4 m.date.year
  have hhead : (padded 4 m.date.year).head? = some c := by rw [hcons]; rfl
  have hlike : Text.isDigitLike c = true := by
    rw [Text.isDigitLike, Text.isDigit_of_isPlainDigit hdigit, Bool.true_or]
  have hread {n : Nat} (h : n < 100) : Text.integer? (padded 2 n) = some (n : Int) :=
    integer?_padded (by decide) (by decide) h
  have hfull : fullYear m.date.year = m.date.year := if_neg (by omega)
  unfold numbers?
  simp only [hfive, fiveWords?, Option.bind_eq_bind, Option.bind_some, hnumeral, hnamed,
    Bool.or_false, Bool.false_eq_true, if_false, month?_monthNames hmonth hmonth', hnocolon,
    Bool.false_and, hcomma, hhead, hlike, if_true, clockWords?_clock,
    integer?_padded (by decide : 0 < 4) (by decide) hlast, hread hday,
    hread (Nat.lt_trans hhour (by decide)), hread (Nat.lt_trans hminute (by decide)),
    hread (Nat.lt_trans hsecond (by decide)), hfull, zoneOffset?_offsetText hwhole hnear]
  rfl

/-- The moment is read back, down to the second. -/
theorem read_mail {m : Moment} (hyear : 100 ≤ m.date.year)
    (hoffset : m.offset = some seconds) (hwhole : 60 ∣ seconds)
    (hnear : seconds.natAbs < 86400) : read m.mail = .ok (some m.wholeSeconds) := by
  obtain ⟨hlast, hmonth, hday⟩ := m.date.lt_bounds
  obtain ⟨hhour, hminute, hsecond, -⟩ := m.clock_bounds
  have hoffsetFits : fitsOffset seconds = .ok true := by
    unfold fitsOffset Number.shortEnd
    dsimp only
    rw [if_neg (by simp; omega), if_neg (by simp; omega), decide_eq_true hnear]
  have hmachine : fitMachine [(m.date.year : Int), m.date.month, m.date.day, m.hour, m.minute,
      m.second] = .ok () := by
    rw [fitMachine_eq_ok_iff]
    unfold Number.shortEnd
    simp only [List.forall_mem_cons]
    exact ⟨by omega, by omega, by omega, by omega, by omega, by omega,
      fun _ hnone => by cases hnone⟩
  have hmoment : (⟨m.date.year, m.date.month, m.date.day, m.hour, m.minute, m.second,
      some seconds⟩ : Numbers).moment? = some m.wholeSeconds := by
    have hdate := m.date.ofParts?_parts
    have hclock := m.ofClock?_wholeSeconds
    rw [hoffset] at hclock
    unfold Numbers.moment?
    simp only [natural?, Option.bind_eq_bind, Option.bind_some]
    rw [hdate, Option.bind_some, hclock]
  unfold read
  rw [numbers?_mail hyear hoffset hwhole hnear]
  simp only [hoffsetFits, hmachine, hmoment]
  rfl

end MailDate

end FeedSieve.Calendar
