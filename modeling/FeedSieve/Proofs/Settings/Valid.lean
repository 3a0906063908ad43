/-
Valid settings.

Settings are valid if every one of them is in its range. Those that pass the
checks are, whichever fields they were given as, since the checks look at
each field and the defaults are in their ranges; and all that are valid pass
them, given as fields of their own (`valid_iff_check`).
-/
import FeedSieve.Settings.Basic

namespace FeedSieve.Lax.Checked

variable {α β : Type} {f : Checked (α → β)} {x : Checked α} {b : β} {fields : List (Text × Value)}
  {name : Text} {absent : Checked α} {read : Value → Checked α} {a : α}

-- ============================================================== checks

/-- Several checks accept what each of them accepts. -/
theorem seq_eq_good_iff : f <*> x = .good b ↔ ∃ g a, f = .good g ∧ x = .good a ∧ g a = b := by
  cases f with
  | good g =>
      cases x with
      | good a =>
          show Checked.good (g a) = .good b ↔ _
          simp
      | bad faults =>
          show Checked.bad faults = .good b ↔ _
          simp
  | bad faults =>
      cases x with
      | good a =>
          show Checked.bad faults = .good b ↔ _
          simp
      | bad more =>
          show Checked.bad (faults ++ more) = .good b ↔ _
          simp

theorem map_eq_good_iff (g : α → β) : g <$> x = .good b ↔ ∃ a, x = .good a ∧ g a = b := by
  have hseq : g <$> x = (.good g : Checked (α → β)) <*> x := rfl
  rw [hseq, seq_eq_good_iff]
  simp

theorem andThen_eq_good_iff {next : α → Checked β} :
    x.andThen next = .good b ↔ ∃ a, x = .good a ∧ next a = .good b := by
  cases x <;> simp [andThen]

theorem within_eq_good_iff : x.within name = .good a ↔ x = .good a := by
  cases x <;> simp [within]

/-- A field is accepted as what is read of it, or as its default. -/
theorem field_eq_good (h : Lax.field fields name absent read = .good a) :
    absent = .good a ∨ ∃ v, read v = .good a := by
  unfold Lax.field at h
  split at h
  · exact .inl (within_eq_good_iff.mp h)
  · exact .inr ⟨_, within_eq_good_iff.mp h⟩

end FeedSieve.Lax.Checked

namespace FeedSieve.Settings

open Lax (Checked Value)
open Number (Double)

variable {s : Profile} {v : Value} {bound n : Nat} {d : Double}

-- ============================================================= ranges

/-- Settings in their ranges. -/
structure Valid (s : Profile) : Prop where
  ndownloads : 1 ≤ s.download.ndownloads
  timeout : s.download.timeout.isPositive = true
  retries : s.download.retries ≤ mostRetries
  requestTimeout : s.http.timeout.isPositive = true

theorem natFrom_good (h : Lax.natFrom bound v = .good n) : bound ≤ n := by
  obtain ⟨i, hi, rfl⟩ := (Checked.map_eq_good_iff _).mp h
  obtain ⟨j, -, hj⟩ := Checked.andThen_eq_good_iff.mp hi
  split at hj
  · cases hj
  · obtain rfl := Checked.good.inj hj
    omega

theorem natFrom_int (h : bound ≤ n) : Lax.natFrom bound (.int n) = .good n := by
  have hless : ¬ (n : Int) < bound := by omega
  have hread : Lax.intFrom bound (.int n) = .good n := if_neg hless
  unfold Lax.natFrom
  rw [hread]
  rfl

theorem positive_good (h : Lax.positive v = .good d) : d.isPositive = true := by
  obtain ⟨e, -, he⟩ := Checked.andThen_eq_good_iff.mp h
  split at he
  · rename_i hpositive
    rwa [← Checked.good.inj he]
  · cases he

theorem positive_double (h : d.isPositive = true) : Lax.positive (.double d) = .good d := if_pos h

theorem checkRetries_good (h : checkRetries v = .good n) : n ≤ mostRetries := by
  obtain ⟨m, -, hm⟩ := Checked.andThen_eq_good_iff.mp h
  split at hm
  · cases hm
  · rename_i hless
    rw [← Checked.good.inj hm]
    exact Nat.not_lt.mp hless

theorem checkRetries_int (h : n ≤ mostRetries) : checkRetries (.int n) = .good n := by
  have hread := natFrom_int (Nat.zero_le n)
  unfold checkRetries
  rw [hread]
  exact if_neg (Nat.not_lt.mpr h)

-- ============================================================ validity

/-- The fields of settings. -/
def fieldsOf (s : Profile) : List (Text × Value) :=
  [("download", .record [("ndownloads", .int s.download.ndownloads),
      ("timeout", .double s.download.timeout), ("retries", .int s.download.retries),
      ("retry_delay_ms", .int s.download.retryDelay)]),
    ("http", .record [("timeout", .double s.http.timeout), ("user_agent", .text s.http.userAgent)])]

/-- Valid settings pass the checks. -/
theorem check_fieldsOf (h : Valid s) : Profile.check (fieldsOf s) = .good s := by
  obtain ⟨⟨ndownloads, timeout, retries, retryDelay⟩, requestTimeout, userAgent⟩ := s
  obtain ⟨hndownloads, htimeout, hretries, hrequest⟩ := h
  have hdownload : Download.check (.record [("ndownloads", .int ndownloads),
      ("timeout", .double timeout), ("retries", .int retries), ("retry_delay_ms", .int retryDelay)])
      = .good ⟨ndownloads, timeout, retries, retryDelay⟩ := by
    show (Download.mk <$> (Lax.natFrom 1 (.int ndownloads)).within "ndownloads"
      <*> (Lax.positive (.double timeout)).within "timeout"
      <*> (checkRetries (.int retries)).within "retries"
      <*> (Lax.natFrom 0 (.int retryDelay)).within "retry_delay_ms") = _
    rw [natFrom_int hndownloads, positive_double htimeout, checkRetries_int hretries,
      natFrom_int (Nat.zero_le _)]
    rfl
  have hhttp : Http.check (.record [("timeout", .double requestTimeout),
      ("user_agent", .text userAgent)]) = .good ⟨requestTimeout, userAgent⟩ := by
    show (Http.mk <$> (Lax.positive (.double requestTimeout)).within "timeout"
      <*> (Lax.text (.text userAgent)).within "user_agent") = _
    rw [positive_double hrequest]
    rfl
  show (Profile.mk <$> (Download.check (.record _)).within "download"
    <*> (Http.check (.record _)).within "http") = _
  rw [hdownload, hhttp]
  rfl

/-- The defaults are in their ranges. -/
theorem valid_default : Valid Profile.default := ⟨by decide, by decide, by decide, by decide⟩

/-- Downloads that pass the checks are in their ranges. -/
theorem download_check_good {download : Download} (h : Download.check v = .good download) :
    1 ≤ download.ndownloads ∧ download.timeout.isPositive = true
      ∧ download.retries ≤ mostRetries := by
  unfold Download.check at h
  split at h
  case h_2 => cases h
  case h_1 fields =>
    simp only [Checked.seq_eq_good_iff, Checked.map_eq_good_iff] at h
    obtain ⟨_, _, ⟨_, _, ⟨_, _, ⟨ndownloads, hndownloads, rfl⟩, htimeout, rfl⟩, hretries, rfl⟩, -,
      rfl⟩ := h
    refine ⟨?_, ?_, ?_⟩
    · obtain habsent | ⟨v, hv⟩ := Checked.field_eq_good hndownloads
      · exact Checked.good.inj habsent ▸ valid_default.ndownloads
      · exact natFrom_good hv
    · obtain habsent | ⟨v, hv⟩ := Checked.field_eq_good htimeout
      · exact Checked.good.inj habsent ▸ valid_default.timeout
      · exact positive_good hv
    · obtain habsent | ⟨v, hv⟩ := Checked.field_eq_good hretries
      · exact Checked.good.inj habsent ▸ valid_default.retries
      · exact checkRetries_good hv

/-- So are requests. -/
theorem http_check_good {http : Http} (h : Http.check v = .good http) :
    http.timeout.isPositive = true := by
  unfold Http.check at h
  split at h
  case h_2 => cases h
  case h_1 fields =>
    simp only [Checked.seq_eq_good_iff, Checked.map_eq_good_iff] at h
    obtain ⟨_, _, ⟨timeout, htimeout, rfl⟩, -, rfl⟩ := h
    obtain habsent | ⟨v, hv⟩ := Checked.field_eq_good htimeout
    · exact Checked.good.inj habsent ▸ valid_default.requestTimeout
    · exact positive_good hv

/-- Settings are valid exactly if they pass the checks, given as some fields. -/
theorem valid_iff_check : Valid s ↔ ∃ fields, Profile.check fields = .good s := by
  refine ⟨fun h => ⟨fieldsOf s, check_fieldsOf h⟩, fun ⟨fields, h⟩ => ?_⟩
  unfold Profile.check at h
  simp only [Checked.seq_eq_good_iff, Checked.map_eq_good_iff] at h
  obtain ⟨_, http, ⟨download, hdownload, rfl⟩, hhttp, rfl⟩ := h
  have hranges : 1 ≤ download.ndownloads ∧ download.timeout.isPositive = true
      ∧ download.retries ≤ mostRetries := by
    obtain habsent | ⟨v, hv⟩ := Checked.field_eq_good hdownload
    · obtain rfl := Checked.good.inj habsent
      exact ⟨valid_default.ndownloads, valid_default.timeout, valid_default.retries⟩
    · exact download_check_good hv
  have hrequest : http.timeout.isPositive = true := by
    obtain habsent | ⟨v, hv⟩ := Checked.field_eq_good hhttp
    · exact Checked.good.inj habsent ▸ valid_default.requestTimeout
    · exact http_check_good hv
  exact ⟨hranges.1, hranges.2.1, hranges.2.2, hrequest⟩

end FeedSieve.Settings
