/-
Texts in lower case. A character is small if lowering leaves it alone. Lowering gives small
characters only (`isSmall_of_mem_lower`), and a text of small characters is its own lower case
(`lower_of_small`).
-/
import Concord.Text.Case

namespace Concord.Text

/-- A character that has no other lower case. A capital sigma has one, whatever stands around it. -/
def isSmall (c : Char) : Bool := lowerChar c == [c] && c != sigma

/-! ## Runs of the table -/

/-- Whether a code is one of those that a run maps. -/
def inRun (r : Nat × Nat × Nat × Int) (n : Nat) : Bool := r.1 ≤ n && n ≤ r.2.1 && (n - r.1) % r.2.2.1 == 0

/-- Whether none of the codes from `a` to `b` in steps of `step` is in the run: they lie apart from it,
or between its codes. -/
def passesBy (a b step : Nat) (r : Nat × Nat × Nat × Int) : Bool :=
  Nat.blt b r.1 || Nat.blt r.2.1 a ||
    (Nat.beq r.2.2.1 2 && (Nat.beq step 2 || Nat.beq a b) && Nat.beq ((a + r.1) % 2) 1)

/-- The only run that leads into ASCII, the sign for kelvin. -/
def kelvin : Nat × Nat × Nat × Int := (8490, 8490, 1, -8383)

/-- Whether a run leads above ASCII to codes that have no other lower case. -/
def givesSmall (r : Nat × Nat × Nat × Int) : Bool :=
  let a := (Int.ofNat r.1 + r.2.2.2).toNat
  let b := (Int.ofNat r.2.1 + r.2.2.2).toNat
  Nat.ble 128 a && passesBy a b r.2.2.1 (304, 304, 2, 0) && Table.lowerRuns.toList.all (passesBy a b r.2.2.1)

theorem lowerRuns_giveSmall : ∀ r ∈ Table.lowerRuns.toList, r = kelvin ∨ givesSmall r = true := by
  decide +kernel

theorem inRun_of_passesBy {a b step m : Nat} {r : Nat × Nat × Nat × Int} (h : passesBy a b step r = true)
    (ha : a ≤ m) (hb : m ≤ b) (hstep : (m - a) % step = 0) : inRun r m = false := by
  rw [← Bool.not_eq_true]
  intro hrun
  simp only [inRun, Bool.and_eq_true, decide_eq_true_eq, beq_iff_eq] at hrun
  simp only [passesBy, Bool.or_eq_true, Bool.and_eq_true, Nat.blt_eq, Nat.beq_eq] at h
  rcases h with (hlow | hhigh) | ⟨⟨htwo, hodd⟩, hparity⟩
  · omega
  · omega
  · rw [htwo] at hrun
    rcases hodd with hstep' | heq
    · rw [hstep'] at hstep
      omega
    · omega

theorem shifted_eq_none {n : Nat} (h : ∀ r ∈ Table.lowerRuns.toList, inRun r n = false) :
    shifted Table.lowerRuns n = none := by
  rw [shifted, ← Array.find?_toList, Option.map_eq_none_iff, List.find?_eq_none]
  exact fun r hr => Bool.eq_false_iff.1 (h r hr)

theorem exists_run_of_shifted {n m : Nat} (h : shifted Table.lowerRuns n = some m) :
    ∃ r ∈ Table.lowerRuns.toList, inRun r n = true ∧ m = (Int.ofNat n + r.2.2.2).toNat := by
  rw [shifted, ← Array.find?_toList, Option.map_eq_some_iff] at h
  obtain ⟨r, hfound, rfl⟩ := h
  have hrun := List.find?_some hfound
  exact ⟨r, List.mem_of_find?_eq_some hfound, hrun, rfl⟩

/-- A code that the table gives is that of `k`, or lies above ASCII and has no other lower case. -/
theorem shifted_cases {n m : Nat} (h : shifted Table.lowerRuns n = some m) :
    m = 107 ∨ 128 ≤ m ∧ m ≠ 304 ∧ shifted Table.lowerRuns m = none := by
  obtain ⟨r, hr, hrun, rfl⟩ := exists_run_of_shifted h
  simp only [inRun, Bool.and_eq_true, decide_eq_true_eq, beq_iff_eq] at hrun
  rcases lowerRuns_giveSmall r hr with rfl | hsmall
  · left
    simp only [kelvin, Int.ofNat_eq_natCast] at hrun ⊢
    omega
  · right
    simp only [givesSmall, Bool.and_eq_true, Nat.ble_eq, List.all_eq_true] at hsmall
    obtain ⟨⟨habove, hdotted⟩, hruns⟩ := hsmall
    simp only [Int.ofNat_eq_natCast] at *
    have hlow : ((r.1 : Int) + r.2.2.2).toNat ≤ ((n : Int) + r.2.2.2).toNat := by omega
    have hhigh : ((n : Int) + r.2.2.2).toNat ≤ ((r.2.1 : Int) + r.2.2.2).toNat := by omega
    have hstep : (((n : Int) + r.2.2.2).toNat - ((r.1 : Int) + r.2.2.2).toNat) % r.2.2.1 = 0 := by
      have hshift : ((n : Int) + r.2.2.2).toNat - ((r.1 : Int) + r.2.2.2).toNat = n - r.1 := by omega
      rw [hshift]
      exact hrun.2
    refine ⟨Nat.le_trans habove hlow, fun heq => ?_, ?_⟩
    · have := inRun_of_passesBy hdotted hlow hhigh hstep
      simp [inRun, heq] at this
    · exact shifted_eq_none fun s hs => inRun_of_passesBy (hruns s hs) hlow hhigh hstep

/-! ## Single characters -/

theorem shifted_sigma : shifted Table.lowerRuns sigma.toNat = some 963 := by decide +kernel

/-- A character above ASCII that the table does not map is small. -/
theorem isSmall_of_shifted {c : Char} (hc : 128 ≤ c.toNat) (hdotted : c.toNat ≠ 304)
    (h : shifted Table.lowerRuns c.toNat = none) : isSmall c = true := by
  have hupper : isAsciiUpper c = false := by
    rw [← Bool.not_eq_true]
    intro hupper
    have := toNat_of_isAsciiLetter (c := c) (by simp [isAsciiLetter, hupper])
    omega
  have hascii : ¬ c.toNat < 128 := Nat.not_lt.2 hc
  have hsigma : c ≠ sigma := by
    rintro rfl
    rw [shifted_sigma] at h
    cases h
  simp [isSmall, lowerChar, hupper, hascii, hdotted, h, hsigma]

/-- The dot above a letter and the two small sigmas are in no run. -/
theorem lowerRuns_pass : ∀ n ∈ [775, 962, 963], ∀ r ∈ Table.lowerRuns.toList, inRun r n = false := by
  decide +kernel

theorem isSmall_of_mem_pass {n : Nat} (hn : n ∈ [775, 962, 963]) : isSmall (Char.ofNat n) = true := by
  have hcodes : ∀ n ∈ [775, 962, 963], (Char.ofNat n).toNat = n ∧ 128 ≤ n ∧ n ≠ 304 := by decide
  obtain ⟨hcode, habove, hdotted⟩ := hcodes n hn
  exact isSmall_of_shifted (by rwa [hcode]) (by rwa [hcode])
    ((congrArg (shifted Table.lowerRuns) hcode).trans (shifted_eq_none (lowerRuns_pass n hn)))

theorem isSmall_ascii : ∀ n < 128, isAsciiUpper (Char.ofNat n) = false → isSmall (Char.ofNat n) = true := by
  decide +kernel

theorem isSmall_of_ascii {c : Char} (hc : c.toNat < 128) (h : isAsciiUpper c = false) : isSmall c = true := by
  have := isSmall_ascii c.toNat hc
  rw [Char.ofNat_toNat] at this
  exact this h

/-- The lower case of a character is small. -/
theorem isSmall_of_mem_lowerChar {c d : Char} (h : d ∈ lowerChar c) : isSmall d = true := by
  unfold lowerChar at h
  split at h
  · -- the capitals of ASCII
    rename_i hupper
    have hcode : 65 ≤ c.toNat ∧ c.toNat ≤ 90 := by
      simp only [isAsciiUpper, Bool.and_eq_true, decide_eq_true_eq, Char.le_def, UInt32.le_iff_toNat_le] at hupper
      exact hupper
    have hsmall : ∀ n < 26, isSmall (Char.ofNat (n + 65 + 32)) = true := by decide +kernel
    have := hsmall (c.toNat - 65) (by omega)
    rw [List.mem_singleton] at h
    rwa [h, ← Nat.sub_add_cancel hcode.1]
  · rename_i hupper
    split at h
    · rename_i hascii
      rw [List.mem_singleton] at h
      exact h ▸ isSmall_of_ascii hascii (Bool.eq_false_iff.2 hupper)
    · rename_i hascii
      split at h
      · -- the dotted capital has two characters for its lower case
        simp only [List.mem_cons, List.not_mem_nil, or_false] at h
        rcases h with rfl | rfl
        · decide +kernel
        · exact isSmall_of_mem_pass (by decide)
      · rename_i hdotted
        split at h
        · rename_i n hn
          rw [List.mem_singleton] at h
          subst h
          rcases shifted_cases hn with rfl | ⟨habove, hne, hnone⟩
          · decide +kernel
          · by_cases hvalid : n.isValidChar
            · have hcode : (Char.ofNat n).toNat = n := by
                rw [Char.ofNat, dif_pos hvalid]
                rfl
              exact isSmall_of_shifted (by rwa [hcode]) (by rwa [hcode])
                ((congrArg (shifted Table.lowerRuns) hcode).trans hnone)
            · rw [Char.ofNat, dif_neg hvalid]
              decide +kernel
        · rename_i hnone
          rw [List.mem_singleton] at h
          subst h
          exact isSmall_of_shifted (Nat.not_lt.1 hascii) (by simpa using hdotted) hnone

/-! ## Texts -/

theorem isSmall_of_mem_lowerAfter {before t : Text} {c : Char} (h : c ∈ lowerAfter before t) :
    isSmall c = true := by
  induction t generalizing before with
  | nil => cases h
  | cons d t ih =>
    simp only [lowerAfter, List.mem_append] at h
    rcases h with h | h
    · split at h
      · split at h
        · exact List.mem_singleton.1 h ▸ isSmall_of_mem_pass (by decide)
        · exact List.mem_singleton.1 h ▸ isSmall_of_mem_pass (by decide)
      · exact isSmall_of_mem_lowerChar h
    · exact ih h

/-- Lowering a text gives small characters. -/
theorem isSmall_of_mem_lower {t : Text} {c : Char} (h : c ∈ lower t) : isSmall c = true :=
  isSmall_of_mem_lowerAfter h

/-- A text of small characters is its own lower case. -/
theorem lower_of_small {t : Text} (h : ∀ c ∈ t, isSmall c = true) : lower t = t := by
  suffices H : ∀ before, lowerAfter before t = t from H []
  induction t with
  | nil => exact fun _ => rfl
  | cons c t ih =>
    intro before
    have hc := h c (by simp)
    simp only [isSmall, Bool.and_eq_true, beq_iff_eq, bne_iff_ne] at hc
    simp [lowerAfter, hc.1, hc.2, ih fun d hd => h d (by simp [hd])]

end Concord.Text
