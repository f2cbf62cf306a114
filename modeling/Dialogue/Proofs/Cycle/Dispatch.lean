import Dialogue.Console
import Dialogue.Proofs.Cycle.Log
import Dialogue.Proofs.State.Version

/-! # Dispatch

A cycle iterates one step, the first match in the rule table, up to the ceiling on firings. Its log
tells the states that the iteration goes through and the rules that matched there, and nothing else
is fired or completed.
-/

namespace Dialogue

open Update

/-- What an observer is told when a rule fires. -/
structure Firing where
  rule : Rule
  iteration : Nat
  before : InformationState
  after : InformationState

/-- What an observer is told when a cycle settles. -/
structure Completion where
  input : TurnInput
  firings : Nat
  state : InformationState

namespace Notice

def firing? : Notice → Option Firing
  | .fired rule iteration before after => some ⟨rule, iteration, before, after⟩
  | _ => none

def completion? : Notice → Option Completion
  | .completed input firings state => some ⟨input, firings, state⟩
  | _ => none

def matched? : Notice → Option Rule
  | .evaluated rule true => some rule
  | _ => none

end Notice

namespace CycleResult

def firings (c : CycleResult) : List Firing :=
  c.log.filterMap Notice.firing?

def completions (c : CycleResult) : List Completion :=
  c.log.filterMap Notice.completion?

def matched (c : CycleResult) : List Rule :=
  c.log.filterMap Notice.matched?

end CycleResult

namespace Engine

variable {e : Engine} {input : TurnInput} {s t u : InformationState} {r : Rule} {n : Nat}

/-- The first rule of the table whose guard holds, and the state it leads to. -/
def step? (e : Engine) (input : TurnInput) (s : InformationState) :
    Option (Rule × InformationState) :=
  e.rules.findSome? fun r => (r.effect (e.context input s)).map fun deltas => (r, s.apply deltas)

/-- The state after `n` steps, unless one of them finds no rule. -/
def iterate? (e : Engine) (input : TurnInput) : Nat → InformationState → Option InformationState
  | 0, s => some s
  | n + 1, s => (e.step? input s).bind fun hit => e.iterate? input n hit.2

/-- The firings are the first `n` steps from a state, numbered from `first` on. -/
def Follows (e : Engine) (input : TurnInput) (s : InformationState) (first n : Nat)
    (firings : List Firing) : Prop :=
  firings.length = n ∧ ∀ i < n, ∃ before r after, e.iterate? input i s = some before ∧
    e.step? input before = some (r, after) ∧ firings[i]? = some ⟨r, first + i, before, after⟩

theorem step?_eq_map (e : Engine) (input : TurnInput) (s : InformationState) :
    e.step? input s = (e.applicable? input s).map fun hit => (hit.1, s.apply hit.2) := by
  rw [step?, applicable?, scan_snd, List.map_findSome?]
  congr 1
  funext r
  rw [Function.comp_apply, Option.map_map]
  rfl

theorem step?_eq_none_iff : e.step? input s = none ↔ e.IsSettled input s := by
  rw [step?_eq_map, Option.map_eq_none_iff, IsSettled]

theorem step?_eq_some_iff : e.step? input s = some (r, t) ↔
    ∃ deltas, e.applicable? input s = some (r, deltas) ∧ t = s.apply deltas := by
  rw [step?_eq_map, Option.map_eq_some_iff]
  constructor
  · rintro ⟨⟨r', deltas⟩, hHit, hEq⟩
    cases hEq
    exact ⟨deltas, hHit, rfl⟩
  · rintro ⟨deltas, hHit, rfl⟩
    exact ⟨(r, deltas), hHit, rfl⟩

theorem iterate?_succ (h : e.step? input s = some (r, t)) (n : Nat) :
    e.iterate? input (n + 1) s = e.iterate? input n t := by
  rw [iterate?, h, Option.bind_some]

theorem exists_trace_of_iterate? (h : e.iterate? input n s = some t) :
    ∃ rs, e.Trace input s rs t ∧ rs.length = n := by
  induction n generalizing s with
  | zero =>
    cases h
    exact ⟨[], .done _, rfl⟩
  | succ n ih =>
    obtain ⟨⟨r, u⟩, hStep, hRest⟩ := Option.bind_eq_some_iff.mp h
    obtain ⟨deltas, hHit, rfl⟩ := step?_eq_some_iff.mp hStep
    obtain ⟨rs, hTrace, hLength⟩ := ih hRest
    exact ⟨r :: rs, .fire hHit hTrace, by rw [List.length_cons, hLength]⟩

theorem version_of_iterate? (h : e.iterate? input n s = some t)
    (hBound : s.version.toNat + n < UInt64.size) : t.version.toNat = s.version.toNat + n := by
  obtain ⟨rs, hTrace, hLength⟩ := exists_trace_of_iterate? h
  rw [hTrace.version_eq, hLength, UInt64.toNat_add, UInt64.toNat_ofNat', Nat.add_mod_mod]
  exact Nat.mod_eq_of_lt hBound

/-- The iteration ends within the bound, or it goes on beyond it. -/
theorem settles_or_goes_on (e : Engine) (input : TurnInput) (bound : Nat) (s : InformationState) :
    (∃ n ≤ bound, ∃ t, e.iterate? input n s = some t ∧ e.step? input t = none) ∨
      ∃ t r u, e.iterate? input bound s = some t ∧ e.step? input t = some (r, u) := by
  induction bound generalizing s with
  | zero =>
    cases hStep : e.step? input s with
    | none => exact .inl ⟨0, Nat.le_refl 0, s, rfl, hStep⟩
    | some hit => exact .inr ⟨s, hit.1, hit.2, rfl, hStep⟩
  | succ bound ih =>
    cases hStep : e.step? input s with
    | none => exact .inl ⟨0, Nat.zero_le _, s, rfl, hStep⟩
    | some hit =>
      rcases ih hit.2 with ⟨n, hBound, t, hEnd, hSettled⟩ | ⟨t, r, u, hEnd, hNext⟩
      · exact .inl ⟨n + 1, Nat.succ_le_succ hBound, t, (iterate?_succ hStep n).trans hEnd, hSettled⟩
      · exact .inr ⟨t, r, u, (iterate?_succ hStep bound).trans hEnd, hNext⟩

theorem Follows.cons {first : Nat} {firings : List Firing} (hStep : e.step? input s = some (r, t))
    (h : e.Follows input t (first + 1) n firings) :
    e.Follows input s first (n + 1) (⟨r, first, s, t⟩ :: firings) := by
  constructor
  · rw [List.length_cons, h.1]
  · intro i hIndex
    cases i with
    | zero => exact ⟨s, r, t, rfl, hStep, rfl⟩
    | succ i =>
      obtain ⟨before, r', after, hReached, hNext, hFiring⟩ := h.2 i (Nat.lt_of_succ_lt_succ hIndex)
      refine ⟨before, r', after, (iterate?_succ hStep i).trans hReached, hNext, ?_⟩
      rw [List.getElem?_cons_succ, hFiring, Nat.add_assoc, Nat.add_comm 1]

theorem exists_evaluated_of_mem_scan {c : Context} {rules : List Rule} {notice : Notice}
    (h : notice ∈ (scan c rules).1) : ∃ rule matched, notice = .evaluated rule matched := by
  induction rules with
  | nil => cases h
  | cons r rest ih =>
    rw [scan] at h
    cases hEffect : r.effect c with
    | some deltas =>
      rw [hEffect, List.mem_singleton] at h
      exact ⟨r, true, h⟩
    | none =>
      rw [hEffect] at h
      rcases List.mem_cons.mp h with rfl | hRest
      · exact ⟨r, false, rfl⟩
      · exact ih hRest

theorem filterMap_matched?_scan (c : Context) (rules : List Rule) :
    (scan c rules).1.filterMap Notice.matched? = ((scan c rules).2.map Prod.fst).toList := by
  induction rules with
  | nil => rfl
  | cons r rest ih =>
    rw [scan]
    cases r.effect c with
    | some deltas => rfl
    | none => exact ih

/-- What is noted before a rule fires or the cycle ends, where `rules` are those that matched. -/
structure Tried (seen : List Notice) (rules : List Rule) : Prop where
  firing : seen.filterMap Notice.firing? = []
  fired : seen.filterMap Notice.firedRule? = []
  completion : seen.filterMap Notice.completion? = []
  matched : seen.filterMap Notice.matched? = rules

theorem tried_scan (c : Context) (rules : List Rule) :
    Tried (scan c rules).1 ((scan c rules).2.map Prod.fst).toList where
  firing := List.filterMap_eq_nil_iff.mpr fun notice hMem => by
    obtain ⟨rule, matched, rfl⟩ := exists_evaluated_of_mem_scan hMem
    rfl
  fired := filterMap_firedRule?_scan c rules
  completion := List.filterMap_eq_nil_iff.mpr fun notice hMem => by
    obtain ⟨rule, matched, rfl⟩ := exists_evaluated_of_mem_scan hMem
    rfl
  matched := filterMap_matched?_scan c rules

theorem settle_of_step?_eq_none (h : e.step? input s = none) (allowed fired : Nat) :
    ∃ seen, Tried seen [] ∧ e.settle input allowed fired s =
      ⟨seen ++ [.completed input fired s.endTurn], .ok s.endTurn⟩ := by
  have hHit : e.applicable? input s = none := step?_eq_none_iff.mp h
  have hTried := tried_scan (e.context input s) e.rules
  rw [show (scan (e.context input s) e.rules).2 = none from hHit] at hTried
  exact ⟨_, hTried, by rw [settle_eq, hHit]⟩

theorem settle_zero_of_step? (h : e.step? input s = some (r, t)) (fired : Nat) :
    ∃ seen, Tried seen [r] ∧ e.settle input 0 fired s = ⟨seen, .error ⟨r.name, fired⟩⟩ := by
  obtain ⟨deltas, hHit, rfl⟩ := step?_eq_some_iff.mp h
  have hTried := tried_scan (e.context input s) e.rules
  rw [show (scan (e.context input s) e.rules).2 = some (r, deltas) from hHit] at hTried
  exact ⟨_, hTried, by rw [settle_eq, hHit]⟩

theorem settle_succ_of_step? (h : e.step? input s = some (r, t)) (allowed fired : Nat) :
    ∃ seen, Tried seen [r] ∧ e.settle input (allowed + 1) fired s =
      ⟨seen ++ .fired r (fired + 1) s t :: (e.settle input allowed (fired + 1) t).log,
        (e.settle input allowed (fired + 1) t).outcome⟩ := by
  obtain ⟨deltas, hHit, rfl⟩ := step?_eq_some_iff.mp h
  have hTried := tried_scan (e.context input s) e.rules
  rw [show (scan (e.context input s) e.rules).2 = some (r, deltas) from hHit] at hTried
  exact ⟨_, hTried, by rw [settle_eq, hHit]⟩

/-- What is noted of `n` steps. -/
structure Iterated (e : Engine) (input : TurnInput) (s : InformationState) (first n : Nat)
    (seen : List Notice) : Prop where
  firings : e.Follows input s first n (seen.filterMap Notice.firing?)
  completion : seen.filterMap Notice.completion? = []
  matched : seen.filterMap Notice.matched? = seen.filterMap Notice.firedRule?

theorem settle_of_iterate? (h : e.iterate? input n s = some t) (allowed fired : Nat) :
    ∃ seen, e.Iterated input s (fired + 1) n seen ∧ e.settle input (n + allowed) fired s =
      ⟨seen ++ (e.settle input allowed (fired + n) t).log,
        (e.settle input allowed (fired + n) t).outcome⟩ := by
  induction n generalizing s fired with
  | zero =>
    cases h
    exact ⟨[], ⟨⟨rfl, fun i hIndex => absurd hIndex (Nat.not_lt_zero i)⟩, rfl, rfl⟩,
      by rw [Nat.zero_add]; rfl⟩
  | succ n ih =>
    obtain ⟨⟨r, u⟩, hStep, hRest⟩ := Option.bind_eq_some_iff.mp h
    obtain ⟨seen, hTried, hSettle⟩ := settle_succ_of_step? hStep (n + allowed) fired
    obtain ⟨seen', hIterated, hSettle'⟩ := ih hRest (fired + 1)
    refine ⟨seen ++ .fired r (fired + 1) s u :: seen', ?_, ?_⟩
    · constructor
      · rw [List.filterMap_append, hTried.firing]
        exact hIterated.firings.cons hStep
      · rw [List.filterMap_append, hTried.completion]
        exact hIterated.completion
      · rw [List.filterMap_append, List.filterMap_append, hTried.matched, hTried.fired]
        exact congrArg (r :: ·) hIterated.matched
    · rw [Nat.add_right_comm n 1 allowed, hSettle, hSettle', Nat.add_right_comm fired 1 n]
      simp [Nat.add_assoc]

/-- Where a cycle returns, a higher ceiling is never reached. -/
theorem settle_eq_of_ok {allowed ceiling fired : Nat}
    (h : (e.settle input allowed fired s).outcome = .ok u) (hCeiling : allowed ≤ ceiling) :
    e.settle input ceiling fired s = e.settle input allowed fired s := by
  induction allowed generalizing ceiling fired s with
  | zero =>
    cases hHit : e.applicable? input s with
    | none => rw [settle_eq, hHit, settle_eq, hHit]
    | some hit =>
      rw [settle_outcome_zero hHit] at h
      cases h
  | succ allowed ih =>
    obtain ⟨ceiling, rfl⟩ : ∃ k, ceiling = k + 1 := ⟨ceiling - 1, by omega⟩
    cases hHit : e.applicable? input s with
    | none => rw [settle_eq, hHit, settle_eq, hHit]
    | some hit =>
      rw [settle_outcome_succ hHit] at h
      rw [settle_eq, hHit, settle_eq e input (allowed + 1), hHit]
      simp only [ih h (Nat.le_of_succ_le_succ hCeiling)]

/-- No rule reads the ceiling on firings. -/
def IgnoreCeiling (rules : List Rule) : Prop :=
  ∀ r ∈ rules, ∀ (c : Context) (ceiling : UInt64),
    r.effect { c with config.maxFirings := ceiling } = r.effect c

theorem ignoreCeiling_defaultRules : IgnoreCeiling defaultRules := by
  intro r hRule c ceiling
  cases hRule using defaultRules_cases with
  | _ => rfl

def withCeiling (e : Engine) (ceiling : UInt64) (h : ceiling ≠ 0) : Engine :=
  { e with
    config := { e.config with maxFirings := ceiling }
    valid := by
      obtain ⟨hLow, hAcknowledge, hEscalation, -⟩ := Config.fault?_eq_none_iff.mp e.valid
      exact Config.fault?_eq_none_iff.mpr ⟨hLow, hAcknowledge, hEscalation, h⟩ }

theorem settle_withCeiling (hRules : IgnoreCeiling e.rules) {ceiling : UInt64}
    (hCeiling : ceiling ≠ 0) (allowed fired : Nat) (s : InformationState) :
    (e.withCeiling ceiling hCeiling).settle input allowed fired s =
      e.settle input allowed fired s := by
  have hScan (t : InformationState) :
      scan ((e.withCeiling ceiling hCeiling).context input t)
          (e.withCeiling ceiling hCeiling).rules = scan (e.context input t) e.rules :=
    scan_congr fun r hRule => hRules r hRule (e.context input t) ceiling
  induction allowed generalizing fired s with
  | zero =>
    rw [settle_eq, settle_eq, applicable?, applicable?, hScan]
    rcases scan (e.context input s) e.rules with ⟨seen, _ | hit⟩
    · rfl
    · rfl
  | succ allowed ih =>
    rw [settle_eq, settle_eq, applicable?, applicable?, hScan]
    rcases scan (e.context input s) e.rules with ⟨seen, _ | ⟨r, deltas⟩⟩
    · rfl
    · simp only [ih]

/-- The cycle returns what `n` steps lead to, with the marks of the turn cleared. -/
structure CompletesAfter (e : Engine) (input : TurnInput) (s : InformationState) (n : Nat)
    (t : InformationState) : Prop where
  outcome : (e.run s input).outcome = .ok { t with turn := {} }
  version : s.version.toNat + n < UInt64.size → t.version.toNat = s.version.toNat + n
  firings : e.Follows input { s with nextMoves := [], turn := {} } 1 n (e.run s input).firings
  completions : (e.run s input).completions = [⟨input, n, { t with turn := {} }⟩]
  matched : (e.run s input).matched = (e.run s input).fired

/-- The cycle fires as often as the ceiling allows and refuses the rule after that. -/
structure RefusesAtCeiling (e : Engine) (input : TurnInput) (s : InformationState) (r : Rule) :
    Prop where
  outcome : (e.run s input).outcome = .error ⟨r.name, e.config.maxFirings.toNat⟩
  firings : e.Follows input { s with nextMoves := [], turn := {} } 1 e.config.maxFirings.toNat
    (e.run s input).firings
  completions : (e.run s input).completions = []
  matched : (e.run s input).matched = (e.run s input).fired ++ [r]

theorem completesAfter_of_iterate? (hBound : n ≤ e.config.maxFirings.toNat)
    (h : e.iterate? input n { s with nextMoves := [], turn := {} } = some t)
    (hSettled : e.step? input t = none) : e.CompletesAfter input s n t := by
  obtain ⟨m, hCeiling⟩ := Nat.exists_eq_add_of_le hBound
  obtain ⟨seen, hIterated, hSettle⟩ := settle_of_iterate? h m 0
  obtain ⟨seen', hTried, hEnd⟩ := settle_of_step?_eq_none hSettled m (0 + n)
  rw [hEnd, ← hCeiling, Nat.zero_add] at hSettle
  have hRun : e.run s input =
      ⟨seen ++ (seen' ++ [.completed input n { t with turn := {} }]), .ok { t with turn := {} }⟩ :=
    hSettle
  constructor
  · rw [hRun]
  · exact version_of_iterate? (s := s.beginTurn) h
  · have hFirings := hIterated.firings
    simpa [hRun, CycleResult.firings, hTried.firing, List.filterMap_cons, Notice.firing?]
      using hFirings
  · simp [hRun, CycleResult.completions, hIterated.completion, hTried.completion,
      Notice.completion?]
  · simp [hRun, CycleResult.matched, CycleResult.fired, hIterated.matched, hTried.matched,
      hTried.fired, List.filterMap_cons, Notice.matched?, Notice.firedRule?]

theorem refusesAtCeiling_of_iterate?
    (h : e.iterate? input e.config.maxFirings.toNat { s with nextMoves := [], turn := {} } = some t)
    (hNext : e.step? input t = some (r, u)) : e.RefusesAtCeiling input s r := by
  obtain ⟨seen, hIterated, hSettle⟩ := settle_of_iterate? h 0 0
  obtain ⟨seen', hTried, hEnd⟩ :=
    settle_zero_of_step? hNext (0 + e.config.maxFirings.toNat)
  rw [hEnd, Nat.add_zero, Nat.zero_add] at hSettle
  have hRun : e.run s input = ⟨seen ++ seen', .error ⟨r.name, e.config.maxFirings.toNat⟩⟩ :=
    hSettle
  constructor
  · rw [hRun]
  · have hFirings := hIterated.firings
    simpa [hRun, CycleResult.firings, hTried.firing] using hFirings
  · simp [hRun, CycleResult.completions, hIterated.completion, hTried.completion]
  · simp [hRun, CycleResult.matched, CycleResult.fired, hIterated.matched, hTried.matched,
      hTried.fired]

theorem run_withCeiling_of_ok (hRules : IgnoreCeiling e.rules)
    (hRun : (e.run s input).outcome = .ok u) {ceiling : UInt64} (hCeiling : ceiling ≠ 0)
    (hLe : e.config.maxFirings ≤ ceiling) :
    (e.withCeiling ceiling hCeiling).run s input = e.run s input := by
  rw [run, settle_withCeiling hRules hCeiling]
  exact settle_eq_of_ok hRun (UInt64.le_iff_toNat_le.mp hLe)

/-- A cycle is the iteration of its step, from the state with the moves and marks of the last cycle
taken away, cut off at the ceiling. As long as no rule reads the ceiling itself, a higher one does
not change a cycle that returns. -/
theorem run_is_bounded_iteration (e : Engine) (s : InformationState) (input : TurnInput) :
    (∀ n t, n ≤ e.config.maxFirings.toNat →
      e.iterate? input n { s with nextMoves := [], turn := {} } = some t →
      e.step? input t = none → e.CompletesAfter input s n t) ∧
    ((∀ n t, n ≤ e.config.maxFirings.toNat →
      e.iterate? input n { s with nextMoves := [], turn := {} } = some t →
      e.step? input t ≠ none) → ∃ t r u,
        e.iterate? input e.config.maxFirings.toNat { s with nextMoves := [], turn := {} } = some t ∧
        e.step? input t = some (r, u) ∧ e.RefusesAtCeiling input s r) ∧
    (IgnoreCeiling e.rules → ∀ u, (e.run s input).outcome = .ok u →
      ∀ (ceiling : UInt64) (hCeiling : ceiling ≠ 0), e.config.maxFirings ≤ ceiling →
        (e.withCeiling ceiling hCeiling).run s input = e.run s input) := by
  refine ⟨fun n t hBound h hSettled => completesAfter_of_iterate? hBound h hSettled, ?_, ?_⟩
  · intro hGoesOn
    rcases settles_or_goes_on e input e.config.maxFirings.toNat
        { s with nextMoves := [], turn := {} } with
      ⟨n, hBound, t, h, hSettled⟩ | ⟨t, r, u, h, hNext⟩
    · exact absurd hSettled (hGoesOn n t hBound h)
    · exact ⟨t, r, u, h, hNext, refusesAtCeiling_of_iterate? h hNext⟩
  · intro hRules u hRun ceiling hCeiling hLe
    exact run_withCeiling_of_ok hRules hRun hCeiling hLe

/-- A table on which no cycle settles, under a ceiling of eight firings. -/
def spinning : Engine :=
  (Console.session.engine.withRules [spin]).withCeiling 8 (by decide)

def roomAsked : TurnInput :=
  .user [⟨.ask ⟨Lecture.bookingRoom⟩, none⟩]

theorem spinning_refuses_and_roomAsked_completes :
    ((∀ n t, n ≤ 8 → spinning.iterate? roomAsked n .initial = some t →
        spinning.step? roomAsked t ≠ none) ∧
      (spinning.run .initial roomAsked).outcome = .error ⟨"spin", 8⟩ ∧
      (spinning.run .initial roomAsked).firings.length = 8) ∧
    ∃ t, Console.session.engine.iterate? roomAsked 4 .initial = some t ∧
      Console.session.engine.step? roomAsked t = none ∧
      Console.session.engine.CompletesAfter roomAsked .initial 4 t ∧
      IgnoreCeiling Console.session.engine.rules ∧
      (Console.session.engine.withCeiling 1000 (by decide)).run .initial roomAsked =
        Console.session.engine.run .initial roomAsked := by
  constructor
  · have hSpins : ∀ n t, n ≤ 8 → spinning.iterate? roomAsked n .initial = some t →
        spinning.step? roomAsked t ≠ none := fun _ _ _ _ hSettled => nomatch hSettled
    obtain ⟨-, hRefuses, -⟩ := run_is_bounded_iteration spinning .initial roomAsked
    obtain ⟨t, r, u, -, hNext, hRefused⟩ := hRefuses hSpins
    have hRule : r = spin := (congrArg Prod.fst (Option.some.inj hNext)).symm
    refine ⟨hSpins, ?_, hRefused.firings.1⟩
    rw [hRefused.outcome, hRule]
    rfl
  · obtain ⟨hCompletes, -, hRaised⟩ :=
      run_is_bounded_iteration Console.session.engine .initial roomAsked
    have hCompleted := hCompletes 4 _ (by decide) rfl rfl
    have hSame := hRaised ignoreCeiling_defaultRules _ hCompleted.outcome 1000 (by decide)
      (by decide)
    exact ⟨_, rfl, rfl, hCompleted, ignoreCeiling_defaultRules, hSame⟩

/-- A rule that matches as soon as there is room for more than one firing. -/
def spinWithRoom : Rule where
  name := "spin_with_room"
  tier := .select
  effect c := if 1 < c.config.maxFirings then some [] else none

/-- A table that reads the ceiling, which is one firing. -/
def spinningWithRoom : Engine :=
  (Console.session.engine.withRules [spinWithRoom]).withCeiling 1 (by decide)

/-- Nothing fires under a ceiling of one, so the cycle returns. Under a ceiling of two the rule
matches again and again. -/
theorem spinningWithRoom_is_refused_under_higher_ceiling :
    (spinningWithRoom.run .initial roomAsked).outcome = .ok .initial ∧
    spinningWithRoom.config.maxFirings ≤ 2 ∧
    ((spinningWithRoom.withCeiling 2 (by decide)).run .initial roomAsked).outcome =
      .error ⟨"spin_with_room", 2⟩ :=
  ⟨rfl, by decide, rfl⟩

end Engine

end Dialogue
