/-
What a run returns.

The outcomes are gathered in the order of the jobs, whatever the order in
which they came, and then put in the order of the items. Where no two items
have one number the second changes nothing: the outcomes are about the items
in their order already.
-/
import Mathlib.Data.List.Nodup
import FeedSieve.Proofs.Download.Slots

namespace FeedSieve.Download

variable {destination : Files.Path} {items : List Feed.Item} {outcomes : List Outcome}

-- =============================================================== jobs

/-- An item whose file has a name is the first job. -/
theorem jobsFor_cons {item : Feed.Item} {path : Files.Path}
    (hpath : filePath item destination = .ok path) :
    jobsFor destination (item :: items)
      = (⟨item, path⟩ :: (jobsFor destination items).1, (jobsFor destination items).2) := by
  simp only [jobsFor, hpath]

/-- If every file has a name, none is the reason not to download. -/
theorem jobsFor_snd_eq_none
    (hnamed : ∀ item ∈ items, ∃ path, filePath item destination = .ok path) :
    (jobsFor destination items).2 = none := by
  induction items with
  | nil => rfl
  | cons item rest ih =>
      obtain ⟨path, hpath⟩ := hnamed item List.mem_cons_self
      rw [jobsFor_cons hpath]
      exact ih fun other hother => hnamed other (List.mem_cons_of_mem _ hother)

/-- There are as many jobs as items. -/
theorem length_jobsFor
    (hnamed : ∀ item ∈ items, ∃ path, filePath item destination = .ok path) :
    (jobsFor destination items).1.length = items.length := by
  induction items with
  | nil => rfl
  | cons item rest ih =>
      obtain ⟨path, hpath⟩ := hnamed item List.mem_cons_self
      rw [jobsFor_cons hpath, List.length_cons, List.length_cons]
      rw [ih fun other hother => hnamed other (List.mem_cons_of_mem _ hother)]

/-- The jobs are the items in their order, each with the path of its file. -/
theorem jobsFor_getElem?_iff
    (hnamed : ∀ item ∈ items, ∃ path, filePath item destination = .ok path)
    (task : Nat) (job : Job) :
    (jobsFor destination items).1[task]? = some job
      ↔ items[task]? = some job.item ∧ filePath job.item destination = .ok job.path := by
  induction items generalizing task with
  | nil => simp [jobsFor]
  | cons item rest ih =>
      obtain ⟨path, hpath⟩ := hnamed item List.mem_cons_self
      rw [jobsFor_cons hpath]
      cases task with
      | zero =>
          simp only [List.getElem?_cons_zero, Option.some.injEq]
          constructor
          · rintro rfl
            exact ⟨rfl, hpath⟩
          · rintro ⟨rfl, hok⟩
            rw [hok] at hpath
            cases hpath
            rfl
      | succ task =>
          simp only [List.getElem?_cons_succ]
          exact ih (fun other hother => hnamed other (List.mem_cons_of_mem _ hother)) task

/-- There is something to fetch for an item with an address that says
something. -/
theorem url?_eq_some_iff (job : Job) (url : Text) :
    job.url? = some url ↔ job.item.enclosureUrl = some url ∧ url ≠ [] := by
  unfold Job.url?
  rw [Option.filter_eq_some_iff]
  simp

/-- There is nothing to fetch without. -/
theorem url?_eq_none_iff (job : Job) :
    job.url? = none ↔ job.item.enclosureUrl.getD [] = [] := by
  unfold Job.url?
  cases job.item.enclosureUrl with
  | none => simp
  | some url => simp [Option.filter]

-- ============================================================== order

/-- The place of an item, counted from the end, among items that have
different numbers. -/
private theorem findIdx_reverse (hdistinct : (items.map (·.index)).Nodup) {place : Nat}
    (hplace : place < items.length) :
    items.reverse.findIdx (fun other => other.index == items[place].index)
      = items.length - 1 - place := by
  rw [List.findIdx_eq (by rw [List.length_reverse]; omega)]
  constructor
  · rw [List.getElem_reverse]
    have hback : items.length - 1 - (items.length - 1 - place) = place := by omega
    simp only [hback, beq_self_eq_true]
  · intro other hother
    rw [List.getElem_reverse, beq_eq_false_iff_ne]
    intro hsame
    -- two places with one number are one place
    have hback : items.length - 1 - other < items.length := by omega
    have hmap : (items.map (·.index))[items.length - 1 - other]?
        = (items.map (·.index))[place]? := by
      rw [List.getElem?_map, List.getElem?_map, List.getElem?_eq_getElem hback,
        List.getElem?_eq_getElem hplace, Option.map_some, Option.map_some, hsame]
    have := (List.getElem?_inj (by rw [List.length_map]; exact hback) hdistinct).mp hmap
    omega

/-- Outcomes in the order of their items are left in it. -/
theorem inItemOrder_eq_self (hdistinct : (items.map (·.index)).Nodup)
    (hindex : outcomes.map (·.index) = items.map (·.index)) :
    inItemOrder items outcomes = outcomes := by
  have hlength : outcomes.length = items.length := by
    simpa using congrArg List.length hindex
  have hnumber : ∀ place (h : place < outcomes.length) (h' : place < items.length),
      outcomes[place].index = items[place].index := by
    intro place h h'
    have hmap : (outcomes.map (·.index))[place]? = (items.map (·.index))[place]? := by
      rw [hindex]
    rw [List.getElem?_map, List.getElem?_map, List.getElem?_eq_getElem h,
      List.getElem?_eq_getElem h'] at hmap
    exact Option.some.inj hmap
  unfold inItemOrder
  refine List.mergeSort_of_pairwise (List.pairwise_iff_getElem.mpr ?_)
  intro i j hi hj hij
  have hi' : i < items.length := hlength ▸ hi
  have hj' : j < items.length := hlength ▸ hj
  simp only [decide_eq_true_eq]
  rw [hnumber i hi hi', hnumber j hj hj', findIdx_reverse hdistinct hi',
    findIdx_reverse hdistinct hj']
  omega

/-- Putting outcomes in the order of the items adds none and drops none. -/
theorem inItemOrder_perm (items : List Feed.Item) (outcomes : List Outcome) :
    (inItemOrder items outcomes).Perm outcomes :=
  List.mergeSort_perm _ _

namespace Slots

-- ============================================================ gathering

/-- The outcomes in the order of their jobs. -/
def gathered (s : Slots) : List Outcome :=
  (s.settled.mergeSort fun a b => a.1 ≤ b.1).map (·.2)

/-- What a run for items returns that ends in a state. -/
def returned (items : List Feed.Item) (s : Slots) : List Outcome :=
  inItemOrder items s.gathered

variable {jobs : List Job} {limit task : Nat} {s : Slots} {outcome : Outcome}

/-- When all are over, each task is over once. -/
theorem Over.settled_perm (hover : s.Over) (hkept : Kept jobs limit s) :
    (s.settled.map (·.1)).Perm (List.range jobs.length) := by
  rw [List.perm_iff_count]
  intro task
  have hplaces := hkept.places_eq task
  unfold places at hplaces
  simp only [hover.fresh, hover.queue, hover.woken, hover.flying, List.count_nil,
    Nat.zero_add] at hplaces
  rw [hplaces, List.count_range]

/-- In the order of their jobs, the tasks are those from the first to the
last. -/
theorem Over.sorted (hover : s.Over) (hkept : Kept jobs limit s) :
    (s.settled.mergeSort fun a b => a.1 ≤ b.1).map (·.1) = List.range jobs.length := by
  have hpairwise : (s.settled.mergeSort fun a b => a.1 ≤ b.1).Pairwise
      fun a b => a.1 ≤ b.1 := by
    let before (a b : Nat × Outcome) : Bool := decide (a.1 ≤ b.1)
    have htrans (a b c : Nat × Outcome) (hab : before a b) (hbc : before b c) :
        before a c := by
      simp only [before, decide_eq_true_eq] at *
      omega
    have htotal (a b : Nat × Outcome) : before a b || before b a := by
      simp only [before, Bool.or_eq_true, decide_eq_true_eq]
      omega
    have := List.pairwise_mergeSort htrans htotal s.settled
    simpa [before] using this
  have hperm : ((s.settled.mergeSort fun a b => a.1 ≤ b.1).map (·.1)).Perm
      (List.range jobs.length) :=
    ((List.mergeSort_perm _ _).map _).trans (hover.settled_perm hkept)
  -- two lists of the same tasks, both in order, are one
  exact hperm.eq_of_pairwise (fun a b _ _ hab hba => Nat.le_antisymm hab hba)
    (List.pairwise_map.mpr hpairwise) List.pairwise_le_range

/-- One outcome is gathered for each job. -/
theorem Over.length_gathered (hover : s.Over) (hkept : Kept jobs limit s) :
    s.gathered.length = jobs.length := by
  have := congrArg List.length (hover.sorted hkept)
  rw [List.length_map, List.length_range] at this
  unfold gathered
  rw [List.length_map, this]

/-- The outcome gathered for a job is the one with which its task is over. -/
theorem Over.gathered_getElem?_iff (hover : s.Over) (hkept : Kept jobs limit s) :
    s.gathered[task]? = some outcome ↔ (task, outcome) ∈ s.settled := by
  have hsorted := hover.sorted hkept
  have hplace : ∀ (place : Nat) (entry : Nat × Outcome),
      (s.settled.mergeSort fun a b => a.1 ≤ b.1)[place]? = some entry → entry.1 = place := by
    intro place entry hentry
    have hmap := congrArg (·[place]?) hsorted
    simp only [List.getElem?_map, hentry, Option.map_some] at hmap
    obtain ⟨hlt, hrange⟩ := List.getElem?_eq_some_iff.mp hmap.symm
    rw [List.getElem_range] at hrange
    exact hrange.symm
  unfold gathered
  rw [List.getElem?_map, Option.map_eq_some_iff]
  constructor
  · rintro ⟨entry, hentry, rfl⟩
    obtain rfl := hplace task entry hentry
    exact List.mem_mergeSort.mp (List.mem_of_getElem? hentry)
  · intro hmem
    obtain ⟨place, hentry⟩ := List.mem_iff_getElem?.mp (List.mem_mergeSort.mpr hmem)
    obtain rfl : task = place := hplace place _ hentry
    exact ⟨_, hentry, rfl⟩

/-- The task of a job is over once. -/
theorem Over.filter_settled (hover : s.Over) (hkept : Kept jobs limit s)
    (hmem : (task, outcome) ∈ s.settled) :
    s.settled.filter (·.1 == task) = [(task, outcome)] := by
  have hcount : (s.settled.map (·.1)).count task = 1 := by
    have hlt : task < jobs.length := by
      have := (hover.settled_perm hkept).mem_iff.mp (List.mem_map_of_mem hmem)
      exact List.mem_range.mp this
    rw [(hover.settled_perm hkept).count_eq, List.count_range, if_pos hlt]
  rw [List.count, List.countP_map, List.countP_eq_length_filter] at hcount
  obtain ⟨entry, hentry⟩ := List.length_eq_one_iff.mp hcount
  have hfilter : (task, outcome) ∈ s.settled.filter (·.1 == task) := by
    rw [List.mem_filter]
    exact ⟨hmem, beq_self_eq_true task⟩
  change s.settled.filter (·.1 == task) = [entry] at hentry
  rw [hentry, List.mem_singleton] at hfilter
  rw [hentry, hfilter]

end Slots

end FeedSieve.Download
