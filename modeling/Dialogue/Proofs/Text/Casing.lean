import Mathlib.Data.List.Basic
import Dialogue.Text.Casing

/-! # Lowercase texts

Lowercasing leaves a lowercase text alone. This rests on a property of the case data that is checked
run against run: what a run maps to is covered by no run.
-/

namespace Dialogue.Text

namespace CaseRun

/-- The run covers none of the codes from `low` to `high` in steps of `stride`. -/
def misses (r : CaseRun) (low high stride : Nat) : Bool :=
  Nat.blt high r.first || Nat.blt r.last low ||
    (Nat.beq (stride % r.stride) 0 || Nat.beq low high) && !Nat.beq ((low - r.first) % r.stride) 0

theorem covers_iff {r : CaseRun} {code : Nat} :
    r.covers code = true ↔ r.first ≤ code ∧ code ≤ r.last ∧ r.stride ∣ code - r.first := by
  simp [covers, and_assoc, Nat.dvd_iff_mod_eq_zero]

theorem covers_of_misses {r : CaseRun} {low high stride code : Nat}
    (h : r.misses low high stride = true) (hLow : low ≤ code) (hHigh : code ≤ high)
    (hStride : stride ∣ code - low) : r.covers code = false := by
  apply Bool.eq_false_iff.mpr
  intro hCovers
  obtain ⟨hFirst, hLast, hDvd⟩ := covers_iff.mp hCovers
  simp only [misses, Bool.or_eq_true, Bool.and_eq_true, Bool.not_eq_true', ← Bool.not_eq_true,
    Nat.blt_eq, Nat.beq_eq] at h
  rcases h with (hBelow | hAbove) | ⟨hSteps, hOff⟩
  · omega
  · omega
  · have hOn : r.stride ∣ code - low := by
      rcases hSteps with hSteps | rfl
      · exact Nat.dvd_trans (Nat.dvd_of_mod_eq_zero hSteps) hStride
      · simp [Nat.le_antisymm hHigh hLow]
    have hStart : low - r.first = code - r.first - (code - low) := by omega
    apply hOff
    rw [hStart]
    exact Nat.mod_eq_zero_of_dvd (Nat.dvd_sub hDvd hOn)

end CaseRun

/-- The data maps no code to one that it maps again, nor to a capital I with dot. -/
theorem misses_images {r : CaseRun} (h : r ∈ lowerRuns) :
    0 ≤ r.first + r.shift ∧ ∀ r' ∈ ⟨0x130, 0x130, 1, 0⟩ :: lowerRuns,
      r'.misses (r.first + r.shift).toNat (r.last + r.shift).toNat r.stride = true := by
  have hData : (lowerRuns.all fun r => decide (0 ≤ r.first + r.shift) &&
      (⟨0x130, 0x130, 1, 0⟩ :: lowerRuns).all fun r' =>
        r'.misses (r.first + r.shift).toNat (r.last + r.shift).toNat r.stride) = true := by
    decide +kernel
  simpa only [Bool.and_eq_true, decide_eq_true_eq, List.all_eq_true] using
    List.all_eq_true.mp hData r h

/-- Of the codes below 128 the data maps the capitals alone. -/
theorem misses_ascii {r : CaseRun} (h : r ∈ lowerRuns) :
    r.misses 0 0x40 1 = true ∧ r.misses 0x5B 0x7F 1 = true := by
  have hData : (lowerRuns.all fun r => r.misses 0 0x40 1 && r.misses 0x5B 0x7F 1) = true := by
    decide +kernel
  simpa only [Bool.and_eq_true] using List.all_eq_true.mp hData r h

theorem toNat_ofNat (code : Nat) : (Char.ofNat code).toNat = code ∨ (Char.ofNat code).toNat = 0 := by
  by_cases hValid : code.isValidChar
  · exact .inl (congrArg Char.toNat (dif_pos hValid))
  · exact .inr (congrArg Char.toNat (dif_neg hValid))

theorem toNat_toLower_of_ascii {c : Char} (h : c.toNat < 0x80) :
    c.toLower.toNat < 0x80 ∧ (c.toLower.toNat < 0x41 ∨ 0x5A < c.toLower.toNat) := by
  have hAscii : ∀ code < 0x80, (Char.ofNat code).toLower.toNat < 0x80 ∧
      ((Char.ofNat code).toLower.toNat < 0x41 ∨ 0x5A < (Char.ofNat code).toLower.toNat) := by
    decide +kernel
  have hChar := hAscii c.toNat h
  rwa [Char.ofNat_toNat] at hChar

/-- Lowercasing has nothing to change about the character. -/
structure IsLow (c : Char) : Prop where
  ne_dotted : c ≠ 'İ'
  uncovered : ∀ r ∈ lowerRuns, r.covers c.toNat = false

namespace IsLow

variable {c d : Char} {text : List Char}

theorem ne_sigma (h : IsLow c) : c ≠ 'Σ' := by
  rintro rfl
  have hMapped : lowerRuns.any (·.covers 'Σ'.toNat) = true := by decide +kernel
  obtain ⟨r, hRun, hCovers⟩ := List.any_eq_true.mp hMapped
  rw [h.uncovered r hRun] at hCovers
  cases hCovers

theorem toLower_eq (h : IsLow c) : c.toLower = c := by
  have hCapitals := h.uncovered ⟨0x41, 0x5A, 1, 32⟩ List.mem_cons_self
  have hSmall : ¬ (c.val ≥ 'A'.val ∧ c.val ≤ 'Z'.val) := by
    rintro ⟨hFirst, hLast⟩
    have hCovers : CaseRun.covers ⟨0x41, 0x5A, 1, 32⟩ c.toNat = true :=
      CaseRun.covers_iff.mpr ⟨hFirst, hLast, Nat.one_dvd _⟩
    rw [hCapitals] at hCovers
    cases hCovers
  exact dif_neg hSmall

theorem lowerChar_eq (h : IsLow c) : lowerChar c = [c] := by
  have hUncovered : lowerRuns.find? (·.covers c.toNat) = none :=
    List.find?_eq_none.mpr fun r hRun => by simp [h.uncovered r hRun]
  rw [lowerChar, if_neg h.ne_dotted]
  split
  · rw [h.toLower_eq]
  · rw [mapCode, hUncovered]

theorem of_all (hDotted : c ≠ 'İ') (h : (lowerRuns.all fun r => !r.covers c.toNat) = true) :
    IsLow c :=
  ⟨hDotted, fun r hRun => by simpa using List.all_eq_true.mp h r hRun⟩

theorem of_ascii (hAscii : c.toNat < 0x80) (hSmall : c.toNat < 0x41 ∨ 0x5A < c.toNat) :
    IsLow c := by
  refine ⟨?_, fun r hRun => ?_⟩
  · rintro rfl
    exact absurd hAscii (by decide)
  · obtain ⟨hBelow, hAbove⟩ := misses_ascii hRun
    rcases hSmall with hSmall | hSmall
    · exact CaseRun.covers_of_misses hBelow (Nat.zero_le _) (by omega) (Nat.one_dvd _)
    · exact CaseRun.covers_of_misses hAbove (by omega) (by omega) (Nat.one_dvd _)

theorem of_shifted {r : CaseRun} (hRun : r ∈ lowerRuns) (hCovers : r.covers c.toNat = true) :
    IsLow (r.shifted c.toNat) := by
  obtain ⟨hNonneg, hMisses⟩ := misses_images hRun
  obtain ⟨hFirst, hLast, hDvd⟩ := CaseRun.covers_iff.mp hCovers
  have hStride : c.toNat - r.first = (c.toNat + r.shift).toNat - (r.first + r.shift).toNat := by
    omega
  rw [hStride] at hDvd
  have hUncovered (r' : CaseRun) (hRun' : r' ∈ ⟨0x130, 0x130, 1, 0⟩ :: lowerRuns) :
      r'.covers (c.toNat + r.shift).toNat = false :=
    CaseRun.covers_of_misses (hMisses r' hRun') (by omega) (by omega) hDvd
  rw [CaseRun.shifted]
  rcases toNat_ofNat (c.toNat + r.shift).toNat with hCode | hCode
  · refine ⟨fun hDotted => ?_, fun r' hRun' => ?_⟩
    · have hClash := hUncovered _ List.mem_cons_self
      rw [← hCode, hDotted] at hClash
      exact absurd hClash (by decide)
    · rw [hCode]
      exact hUncovered r' (List.mem_cons_of_mem _ hRun')
  · apply of_ascii
    · omega
    · omega

theorem of_mem_lowerChar (h : d ∈ lowerChar c) : IsLow d := by
  by_cases hDotted : c = 'İ'
  · rw [lowerChar, if_pos hDotted] at h
    rcases List.mem_pair.mp h with rfl | rfl
    · exact of_ascii (by decide) (by decide)
    · exact of_all (by decide) (by decide +kernel)
  · rw [lowerChar, if_neg hDotted] at h
    split at h
    · next hAscii =>
      obtain ⟨hBound, hSmall⟩ := toNat_toLower_of_ascii hAscii
      rw [List.mem_singleton.mp h]
      exact of_ascii hBound hSmall
    · rw [List.mem_singleton.mp h, mapCode]
      split
      · next r hFound =>
        have hCovers := List.find?_some hFound
        exact of_shifted (List.mem_of_find?_eq_some hFound) hCovers
      · next hNone =>
        refine ⟨hDotted, fun r hRun => ?_⟩
        simpa using List.find?_eq_none.mp hNone r hRun

theorem of_lowerSigma (before after : List Char) : IsLow (lowerSigma before after) := by
  rw [lowerSigma]
  split
  · exact of_all (by decide) (by decide +kernel)
  · exact of_all (by decide) (by decide +kernel)

theorem of_mem_lowerFrom {before : List Char} (h : d ∈ lowerFrom before text) : IsLow d := by
  induction text generalizing before with
  | nil => cases h
  | cons c rest ih =>
    rw [lowerFrom] at h
    rcases List.mem_append.mp h with hHead | hRest
    · split at hHead
      · rw [List.mem_singleton.mp hHead]
        exact of_lowerSigma before rest
      · exact of_mem_lowerChar hHead
    · exact ih hRest

theorem lowerFrom_eq (h : ∀ c ∈ text, IsLow c) (before : List Char) :
    lowerFrom before text = text := by
  induction text generalizing before with
  | nil => rfl
  | cons c rest ih =>
    have hHead := h c List.mem_cons_self
    rw [lowerFrom, if_neg hHead.ne_sigma, hHead.lowerChar_eq,
      ih fun d hMem => h d (List.mem_cons_of_mem c hMem)]
    rfl

end IsLow

theorem lower_lower (text : String) : lower (lower text) = lower text := by
  have hLow : ∀ d ∈ (lower text).toList, IsLow d := by
    intro d hMem
    rw [lower, String.toList_ofList] at hMem
    exact IsLow.of_mem_lowerFrom hMem
  rw [lower, IsLow.lowerFrom_eq hLow, String.ofList_toList]

end Dialogue.Text
