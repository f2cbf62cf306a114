import Mathlib.Algebra.GroupWithZero.Nat
import Mathlib.Data.List.MinMax
import Mathlib.Order.Nat
import Dialogue.Telemetry.Snapshot

/-! # Counts of a snapshot

The counts by rule and those by tier add up to the number of firings, and sums and maxima of words
are those of the numbers as long as these fit.
-/

namespace Dialogue

theorem Table.sum_insertEntry {l : List (String × Nat)} (h : l.Pairwise fun a b => a.1 < b.1)
    (name : String) (value : Nat) :
    ((insertEntry name value l).map (·.2)).sum + (l.lookup name).getD 0 =
      (l.map (·.2)).sum + value := by
  induction l with
  | nil => simp [insertEntry]
  | cons e rest ih =>
    obtain ⟨other, found⟩ := e
    obtain ⟨hHead, hRest⟩ := List.pairwise_cons.mp h
    rw [insertEntry]
    by_cases hBefore : name < other
    · have hNone : ((other, found) :: rest).lookup name = none := by
        rw [List.lookup_eq_none_iff]
        intro e hMem
        rw [bne_iff_ne]
        rcases List.mem_cons.mp hMem with rfl | hMem
        · exact String.ne_of_lt hBefore
        · exact String.ne_of_lt (String.lt_trans hBefore (hHead e hMem))
      rw [if_pos hBefore, hNone]
      simp [Nat.add_comm]
    · by_cases hSame : name = other
      · subst hSame
        simp
        omega
      · have hOther := ih hRest
        rw [if_neg hBefore, if_neg hSame, List.lookup_cons, beq_eq_false_iff_ne.mpr hSame]
        simp only [List.map_cons, List.sum_cons]
        omega

namespace Snapshot

theorem sum_tally (names : List String) : ((tally names).entries.map (·.2)).sum = names.length := by
  have hFold (t : Table Nat) : ((names.foldl
      (fun t name => t.insert name ((t.get? name).getD 0 + 1)) t).entries.map (·.2)).sum =
        (t.entries.map (·.2)).sum + names.length := by
    induction names generalizing t with
    | nil => rfl
    | cons name rest ih =>
      have hInsert := Table.sum_insertEntry t.sorted name ((t.get? name).getD 0 + 1)
      rw [List.foldl_cons, ih, List.length_cons]
      simp only [Table.insert, Table.get?] at hInsert ⊢
      omega
  rw [tally, hFold, Table.empty, List.map_nil, List.sum_nil, Nat.zero_add]

theorem get?_tally (names : List String) (name : String) :
    ((tally names).get? name).getD 0 = names.count name := by
  have hFold (t : Table Nat) : ((names.foldl
      (fun t name => t.insert name ((t.get? name).getD 0 + 1)) t).get? name).getD 0 =
        (t.get? name).getD 0 + names.count name := by
    induction names generalizing t with
    | nil => rfl
    | cons other rest ih =>
      rw [List.foldl_cons, ih, Table.get?_insert, List.count_cons]
      by_cases hSame : name = other
      · subst hSame
        simp only [if_pos, Option.getD_some, beq_self_eq_true]
        omega
      · rw [if_neg hSame, if_neg (by simpa using Ne.symm hSame), Nat.add_zero]
  rw [tally, hFold, Table.get?_empty, Option.getD_none, Nat.zero_add]

theorem sum_count_of_all {α : Type} [DecidableEq α] {all : List α} (hOnce : ∀ a, all.count a = 1)
    (l : List α) : (all.map fun a => l.count a).sum = l.length := by
  have hCons (a : α) (rest : List α) : (all.map fun b => (a :: rest).count b).sum =
      (all.map fun b => rest.count b).sum + all.count a := by
    clear hOnce
    induction all with
    | nil => rfl
    | cons b bs ih =>
      rw [List.map_cons, List.sum_cons, ih, List.map_cons, List.sum_cons, List.count_cons,
        List.count_cons, BEq.comm]
      omega
  induction l with
  | nil => simp
  | cons a rest ih => rw [hCons, ih, hOnce, List.length_cons]

theorem sum_count_tiers (tiers : List Tier) :
    (Tier.all.map fun tier => tiers.count tier).sum = tiers.length := by
  apply sum_count_of_all
  intro tier
  cases tier <;> rfl

theorem sum_count_changes (changes : List ContactChange) : changes.count .reprompted +
    changes.count .escalated + changes.count .reset = changes.length := by
  have hOnce (change : ContactChange) : [ContactChange.reprompted, .escalated, .reset].count
      change = 1 := by
    cases change <;> rfl
  simpa [Nat.add_assoc] using sum_count_of_all hOnce changes

/-- To leave out what is not there changes no sum. -/
theorem sum_filterMap_ne_zero {α : Type} (l : List α) (count : α → Nat) :
    ((l.filterMap fun a => if count a = 0 then none else some (a, count a)).map (·.2)).sum =
      (l.map count).sum := by
  induction l with
  | nil => rfl
  | cons a rest ih =>
    by_cases hZero : count a = 0
    · simp [hZero, ih]
    · simp [hZero, ih]

theorem lookup_filterMap_ne_zero {α : Type} [DecidableEq α] (l : List α) (count : α → Nat)
    (a : α) : ((l.filterMap fun b =>
      if count b = 0 then none else some (b, count b)).lookup a).getD 0 =
        if a ∈ l then count a else 0 := by
  induction l with
  | nil => rfl
  | cons b rest ih =>
    by_cases hSame : a = b
    · subst hSame
      by_cases hZero : count a = 0
      · simp [hZero, ih]
      · simp [hZero]
    · by_cases hZero : count b = 0
      · simp [hZero, hSame, ih]
      · simp [hZero, hSame, List.lookup_cons, beq_eq_false_iff_ne.mpr hSame, ih]

end Snapshot

theorem foldl_add_ofNat (ns : List Nat) (start : UInt64) :
    (ns.map UInt64.ofNat).foldl (· + ·) start = start + UInt64.ofNat ns.sum := by
  induction ns generalizing start with
  | nil => simp
  | cons n rest ih =>
    rw [List.map_cons, List.foldl_cons, ih, List.sum_cons, UInt64.ofNat_add, UInt64.add_assoc]

theorem toNat_max (a b : UInt64) : (max a b).toNat = max a.toNat b.toNat := by
  change (if a ≤ b then b else a).toNat = _
  split
  · next hLe => exact (Nat.max_eq_right (UInt64.le_iff_toNat_le.mp hLe)).symm
  · next hMore =>
    have hLess := UInt64.lt_iff_toNat_lt.mp (UInt64.not_le.mp hMore)
    exact (Nat.max_eq_left (Nat.le_of_lt hLess)).symm

theorem toNat_foldl_max {ns : List Nat} (h : ∀ n ∈ ns, n < UInt64.size) (start : UInt64) :
    ((ns.map UInt64.ofNat).foldl max start).toNat = max start.toNat (ns.foldr max 0) := by
  induction ns generalizing start with
  | nil => simp
  | cons n rest ih =>
    rw [List.forall_mem_cons] at h
    rw [List.map_cons, List.foldl_cons, ih h.2, toNat_max, UInt64.toNat_ofNat_of_lt' h.1,
      List.foldr_cons, max_assoc]

end Dialogue
