import Dialogue.Update.Rule

/-! # Pending moves

What latching and consuming moves does to the moves that a cycle has not dealt with.
-/

namespace Dialogue.InformationState

variable {s t : InformationState}

theorem pendingMoves_of_not_latched (h : s.turn.latched = false) : s.pendingMoves = [] := by
  simp [pendingMoves, latched?, h]

theorem latched?_eq_some_iff {u : Utterance} :
    s.latched? = some u ↔ s.turn.latched = true ∧ s.shared.lu = some u := by
  rw [latched?]
  split <;> simp_all

theorem mem_pendingMoves_iff {u : Utterance} (h : s.latched? = some u) {x : Nat × Move} :
    x ∈ s.pendingMoves ↔ u.moves[x.1]? = some x.2 ∧ x.1 ∉ s.turn.consumed := by
  rw [pendingMoves, h, List.mem_filter, Bool.not_eq_true', List.contains_eq_mem,
    decide_eq_false_iff_not]
  apply and_congr_left'
  constructor
  · intro hMem
    obtain ⟨y, hPosition, rfl⟩ := List.mem_map.mp hMem
    exact List.mk_mem_zipIdx_iff_getElem?.mp hPosition
  · intro hMove
    exact List.mem_map.mpr ⟨x.swap, List.mk_mem_zipIdx_iff_getElem?.mpr hMove, rfl⟩

theorem not_mem_consumed_of_pending {x : Nat × Move} (hMem : x ∈ s.pendingMoves) :
    x.1 ∉ s.turn.consumed := by
  rw [pendingMoves] at hMem
  split at hMem
  · simpa using (List.mem_filter.mp hMem).2
  · cases hMem

theorem mem_moves_of_pending {u : Utterance} (h : s.latched? = some u) {x : Nat × Move}
    (hMem : x ∈ s.pendingMoves) : x.2 ∈ u.moves :=
  List.mem_of_getElem? ((mem_pendingMoves_iff h).mp hMem).1

theorem pendingMoves_congr (hLatched : t.turn.latched = s.turn.latched)
    (hLu : t.shared.lu = s.shared.lu) (hConsumed : t.turn.consumed = s.turn.consumed) :
    t.pendingMoves = s.pendingMoves := by
  rw [pendingMoves, pendingMoves, latched?, latched?, hLatched, hLu, hConsumed]

theorem pendingMoves_subset (hLatched : t.turn.latched = s.turn.latched)
    (hLu : t.shared.lu = s.shared.lu) (hConsumed : s.turn.consumed ⊆ t.turn.consumed) :
    t.pendingMoves ⊆ s.pendingMoves := by
  have hLatched? : t.latched? = s.latched? := by rw [latched?, latched?, hLatched, hLu]
  rw [pendingMoves, pendingMoves, hLatched?]
  cases s.latched? with
  | none => exact List.Subset.refl []
  | some u =>
    intro x hMem
    rw [List.mem_filter] at hMem ⊢
    refine ⟨hMem.1, ?_⟩
    simp only [Bool.not_eq_true', List.contains_eq_mem, decide_eq_false_iff_not] at hMem ⊢
    exact fun hOld => hMem.2 (hConsumed hOld)

theorem pendingMoves_eq_filter (p : Nat → Bool) (hLatched : t.turn.latched = s.turn.latched)
    (hLu : t.shared.lu = s.shared.lu)
    (hConsumed : ∀ i, i ∈ t.turn.consumed ↔ i ∈ s.turn.consumed ∨ p i = true) :
    t.pendingMoves = s.pendingMoves.filter fun e => !p e.1 := by
  have hLatched? : t.latched? = s.latched? := by rw [latched?, latched?, hLatched, hLu]
  rw [pendingMoves, pendingMoves, hLatched?]
  cases s.latched? with
  | none => rfl
  | some u =>
    rw [List.filter_filter]
    apply List.filter_congr
    intro e _
    rw [Bool.eq_iff_iff]
    simp [hConsumed, and_comm]

theorem length_pendingMoves_le {p : Nat → Bool} (hLatched : t.turn.latched = s.turn.latched)
    (hLu : t.shared.lu = s.shared.lu)
    (hConsumed : ∀ i, i ∈ t.turn.consumed ↔ i ∈ s.turn.consumed ∨ p i = true) :
    t.pendingMoves.length ≤ s.pendingMoves.length := by
  rw [pendingMoves_eq_filter p hLatched hLu hConsumed]
  exact List.length_filter_le _ _

theorem length_pendingMoves_lt {p : Nat → Bool} (hLatched : t.turn.latched = s.turn.latched)
    (hLu : t.shared.lu = s.shared.lu)
    (hConsumed : ∀ i, i ∈ t.turn.consumed ↔ i ∈ s.turn.consumed ∨ p i = true)
    {e : Nat × Move} (hPending : e ∈ s.pendingMoves) (hHit : p e.1 = true) :
    t.pendingMoves.length < s.pendingMoves.length := by
  rw [pendingMoves_eq_filter p hLatched hLu hConsumed]
  exact List.length_filter_lt_length_iff_exists.mpr ⟨e, hPending, by simp [hHit]⟩

theorem pairwise_pendingMoves (s : InformationState) :
    s.pendingMoves.Pairwise fun x y => x.1 < y.1 := by
  rw [pendingMoves]
  cases s.latched? with
  | none => exact .nil
  | some u =>
    have hPositions : (u.moves.zipIdx.map Prod.snd).Pairwise (· < ·) := by
      rw [List.zipIdx_map_snd]
      exact List.pairwise_lt_range'
    have hAll : (u.moves.zipIdx.map Prod.swap).Pairwise fun x y => x.1 < y.1 :=
      List.pairwise_map.mpr (List.pairwise_map.mp hPositions)
    exact hAll.filter _

theorem nodup_pendingMoves (s : InformationState) : (s.pendingMoves.map (·.1)).Nodup :=
  List.pairwise_map.mpr (s.pairwise_pendingMoves.imp Nat.ne_of_lt)

/-- The positions dealt with once the silent moves are. -/
def consumedSilence (s : InformationState) : List Nat :=
  (s.pendingMoves.filter (·.2.isNoInput)).foldl (fun positions e => positions.insert e.1)
    s.turn.consumed

theorem mem_foldl_insert (l : List (Nat × Move)) (positions : List Nat) (i : Nat) :
    i ∈ l.foldl (fun positions e => positions.insert e.1) positions ↔
      i ∈ positions ∨ ∃ e ∈ l, e.1 = i := by
  induction l generalizing positions with
  | nil => simp
  | cons e rest ih =>
    rw [List.foldl_cons, ih, List.mem_insert_iff]
    constructor
    · rintro ((rfl | h) | ⟨e', h, rfl⟩)
      · exact .inr ⟨e, List.mem_cons_self, rfl⟩
      · exact .inl h
      · exact .inr ⟨e', List.mem_cons_of_mem _ h, rfl⟩
    · rintro (h | ⟨e', h, rfl⟩)
      · exact .inl (.inr h)
      · rcases List.mem_cons.mp h with rfl | h
        · exact .inl (.inl rfl)
        · exact .inr ⟨e', h, rfl⟩

theorem mem_consumedSilence {i : Nat} : i ∈ s.consumedSilence ↔
    i ∈ s.turn.consumed ∨ (s.pendingMoves.any fun e => e.2.isNoInput && e.1 == i) = true := by
  rw [consumedSilence, mem_foldl_insert]
  simp [and_assoc]

theorem consumed_subset_insert {i : Nat} : s.turn.consumed ⊆ s.turn.consumed.insert i := by
  intro j hOld
  exact List.mem_insert_of_mem hOld

theorem consumed_subset_consumedSilence : s.turn.consumed ⊆ s.consumedSilence := by
  intro i hOld
  exact mem_consumedSilence.mpr (.inl hOld)

theorem foldl_reduce_consume (l : List (Nat × Move)) (s : InformationState) :
    (l.map fun e => Delta.consume e.1).foldl reduce s =
      { s with turn.consumed :=
          l.foldl (fun positions e => positions.insert e.1) s.turn.consumed } := by
  induction l generalizing s with
  | nil => rfl
  | cons e rest ih => rw [List.map_cons, List.foldl_cons, ih]; rfl

end Dialogue.InformationState

namespace Dialogue.Context

variable {c : Context} {β : Type} {f : Move → Option β}

theorem findPending?_eq_none_iff :
    c.findPending? f = none ↔ ∀ e ∈ c.state.pendingMoves, f e.2 = none := by
  simp [findPending?]

theorem exists_pending_of_findPending? {i : Nat} {b : β} (h : c.findPending? f = some (i, b)) :
    ∃ m, (i, m) ∈ c.state.pendingMoves ∧ f m = some b := by
  obtain ⟨e, hPending, hFound⟩ := List.exists_of_findSome?_eq_some h
  obtain ⟨b', hb, hEq⟩ := Option.map_eq_some_iff.mp hFound
  cases hEq
  exact ⟨e.2, hPending, hb⟩

theorem eq_none_of_findPending? {i : Nat} {b : β} (h : c.findPending? f = some (i, b))
    {x : Nat × Move} (hMem : x ∈ c.state.pendingMoves) (hBefore : x.1 < i) : f x.2 = none := by
  obtain ⟨before, y, after, hSplit, hFound, hNone⟩ := List.findSome?_eq_some_iff.mp h
  obtain ⟨b', -, hPair⟩ := Option.map_eq_some_iff.mp hFound
  cases hPair
  have hAscending := c.state.pairwise_pendingMoves
  rw [hSplit, List.pairwise_append, List.pairwise_cons] at hAscending
  rw [hSplit] at hMem
  rcases List.mem_append.mp hMem with hFirst | hRest
  · exact Option.map_eq_none_iff.mp (hNone x hFirst)
  · rcases List.mem_cons.mp hRest with rfl | hLater
    · exact absurd hBefore (Nat.lt_irrefl _)
    · exact absurd hBefore (Nat.not_lt_of_gt (hAscending.2.1.1 x hLater))

/-- When the move found is dealt with, the others are left. -/
theorem filter_position_eq_eraseP {l : List (Nat × Move)} {i : Nat} {b : β}
    (hNodup : (l.map (·.1)).Nodup)
    (hFind : (l.findSome? fun e => (f e.2).map fun b => (e.1, b)) = some (i, b)) :
    l.filter (fun e => !(e.1 == i)) = l.eraseP fun e => (f e.2).isSome := by
  induction l with
  | nil => rfl
  | cons e l ih =>
    obtain ⟨hFirst, hRest⟩ := List.nodup_cons.mp hNodup
    rw [List.findSome?_cons] at hFind
    cases hFound : f e.2 with
    | none =>
      rw [hFound] at hFind
      obtain ⟨e', hMem, hFound'⟩ := List.exists_of_findSome?_eq_some hFind
      obtain ⟨b', -, hPair⟩ := Option.map_eq_some_iff.mp hFound'
      cases hPair
      have hOther : e.1 ≠ e'.1 := fun hSame => hFirst (List.mem_map.mpr ⟨e', hMem, hSame.symm⟩)
      rw [List.filter_cons_of_pos (by simpa using hOther),
        List.eraseP_cons_of_neg (by simp [hFound]), ih hRest hFind]
    | some b' =>
      rw [hFound] at hFind
      cases hFind
      rw [List.filter_cons_of_neg (by simp), List.eraseP_cons_of_pos (by simp [hFound]),
        List.filter_eq_self]
      intro e' hMem
      have hOther : e'.1 ≠ e.1 := fun hSame => hFirst (List.mem_map.mpr ⟨e', hMem, hSame⟩)
      simpa using hOther

end Dialogue.Context
