import Mathlib.Data.List.Basic
import BootEngine.Text.LowerCase

/-!
# Lower case and ASCII case

Lower-casing a text looks at every character of it and goes by the whole of Unicode. Ignoring the
case of ASCII letters goes by fifty-two of them. The two agree as far as the second one looks: texts
that differ in the case of ASCII letters only have one form in small letters, and that form holds no
ASCII capital. They do not agree beyond it, so a text need not be the same as its form in small
letters.

Contents:
* `IsSmall`, `isSmall_of_mem_lowerFrom`: the characters of a text in small letters.
* `lowerCase_lowerCase`: a text in small letters stays as it is.
* `lowerCase_eq_of_same`: the case of ASCII letters does not count.
* `eq_lowerCase_of_same`: a text in small letters is the form of all that are the same up to ASCII
  case.
-/

namespace BootEngine.Text

/-! ## Small letters -/

/-- A character that stays as it is, whatever stands beside it. -/
def IsSmall (c : Char) : Prop := lowerChar c = [c] ∧ c.toNat ≠ 0x3A3

instance (c : Char) : Decidable (IsSmall c) := inferInstanceAs (Decidable (_ ∧ _))

/-- The ASCII capitals. -/
def asciiCapitals : List Char := "ABCDEFGHIJKLMNOPQRSTUVWXYZ".toList

/-- Ignoring ASCII case touches the ASCII capitals only. -/
theorem toLower_eq_self_or_mem (c : Char) : c.toLower = c ∨ c ∈ asciiCapitals := by
  by_cases hc : 65 ≤ c.toNat ∧ c.toNat ≤ 90
  · have hcapitals : ∀ n < 91, 65 ≤ n → Char.ofNat n ∈ asciiCapitals := by decide
    have hmem := hcapitals c.toNat (by omega) hc.1
    rw [Char.ofNat_toNat] at hmem
    exact .inr hmem
  · exact .inl (dif_neg hc)

/-- What an ASCII capital and its small letter have in common, all characters have in common with
    their images. -/
theorem apply_toLower {α : Type} {f : Char → α}
    (h : (asciiCapitals.map fun c => f c.toLower) = asciiCapitals.map f) (c : Char) :
    f c.toLower = f c := by
  rcases toLower_eq_self_or_mem c with hc | hc
  · rw [hc]
  · exact List.map_inj_left.mp h c hc

theorem toLower_toLower (c : Char) : c.toLower.toLower = c.toLower :=
  apply_toLower (by decide) c

/-- The small letters of one run of capital letters `(first, last, step, image)` lie off another
    run: in front of it, behind it, or in the gaps of a run with step two. -/
def isOff (run other : Nat × Nat × Nat × Nat) : Bool :=
  Nat.blt (run.2.2.2 + (run.2.1 - run.1)) other.1 || Nat.blt other.2.1 run.2.2.2 ||
    (Nat.beq run.1 run.2.1 || Nat.beq run.2.2.1 2) &&
      (Nat.beq other.2.2.1 2 && Nat.beq ((run.2.2.2 + other.1) % 2) 1)

/-- The small letters of a run are characters, and none of them is the dotted capital I. -/
def isPlain (run : Nat × Nat × Nat × Nat) : Bool :=
  (Nat.blt (run.2.2.2 + (run.2.1 - run.1)) 0xD800 ||
    Nat.blt 0xDFFF run.2.2.2 && Nat.blt (run.2.2.2 + (run.2.1 - run.1)) 0x110000) &&
  (Nat.blt (run.2.2.2 + (run.2.1 - run.1)) 0x130 || Nat.blt 0x130 run.2.2.2 ||
    Nat.beq run.2.2.1 2 && Nat.beq (run.2.2.2 % 2) 1)

/-- No small letter of any run is a capital letter. -/
theorem runs_off : (lowerRuns.all fun run => isPlain run && lowerRuns.all (isOff run)) = true := by
  decide +kernel

/-- The small letter of a capital letter is a character and no capital letter. -/
theorem lowerCode_of_lowerCode {code image : Nat} (h : lowerCode code = some image) :
    image.isValidChar ∧ image ≠ 0x130 ∧ lowerCode image = none := by
  obtain ⟨⟨first, last, stride, start⟩, hrun, hcode⟩ := List.exists_of_findSome?_eq_some h
  dsimp only at hcode
  split at hcode
  · next hin =>
    simp only [Bool.and_eq_true, decide_eq_true_eq, beq_iff_eq] at hin
    obtain rfl := Option.some.inj hcode
    have hall := List.all_eq_true.mp runs_off _ hrun
    simp only [Bool.and_eq_true, List.all_eq_true, isPlain, Bool.or_eq_true, Nat.blt_eq,
      Nat.beq_eq] at hall
    obtain ⟨⟨hchar, hdotted⟩, hoff⟩ := hall
    refine ⟨?_, ?_, ?_⟩
    · rcases hchar with hlow | hhigh
      · exact .inl (by omega)
      · exact .inr (by omega)
    · rcases hdotted with (hlow | hhigh) | ⟨hstride, hodd⟩
      · omega
      · omega
      · subst hstride
        omega
    · refine List.findSome?_eq_none_iff.mpr ?_
      rintro ⟨first', last', stride', start'⟩ hother
      have hapart := hoff _ hother
      simp only [isOff, Bool.or_eq_true, Bool.and_eq_true, Nat.blt_eq, Nat.beq_eq] at hapart
      dsimp only
      refine if_neg ?_
      simp only [Bool.and_eq_true, decide_eq_true_eq, beq_iff_eq]
      rintro ⟨⟨hfirst, hlast⟩, hstep⟩
      rcases hapart with (hlow | hhigh) | ⟨hsingle, hgap, hodd⟩
      · omega
      · omega
      · subst hgap
        rcases hsingle with hsingle | hsingle <;> subst hsingle <;> omega
  · cases hcode

/-- A code point that is no capital letter is that of a small letter, but for the dotted capital
    I. -/
theorem isSmall_of_lowerCode_eq_none {code : Nat} (hchar : code.isValidChar)
    (hdotted : code ≠ 0x130) (h : lowerCode code = none) : IsSmall (Char.ofNat code) := by
  have hcode : (Char.ofNat code).toNat = code := by
    rw [Char.ofNat, dif_pos hchar]
    rfl
  have hsigma : code ≠ 0x3A3 := by
    rintro rfl
    exact absurd h (by decide)
  refine ⟨?_, by rwa [hcode]⟩
  rw [lowerChar, hcode]
  split
  · rcases toLower_eq_self_or_mem (Char.ofNat code) with hsame | hcapital
    · rw [hsame]
    · have hcapitals : (asciiCapitals.all fun c => (lowerCode c.toNat).isSome) = true := by decide
      have hletter := List.all_eq_true.mp hcapitals _ hcapital
      rw [hcode, h] at hletter
      cases hletter
  · rw [if_neg (fun hd => hdotted (beq_iff_eq.mp hd)), h]

/-- The image of a single character consists of small letters. -/
theorem isSmall_of_mem_lowerChar {c d : Char} (hc : c.toNat ≠ 0x3A3) (h : d ∈ lowerChar c) :
    IsSmall d := by
  unfold lowerChar at h
  split at h
  · next hascii =>
    obtain rfl := List.mem_singleton.mp h
    have hbound : c.toLower.toNat < 128 := by
      rcases toLower_eq_self_or_mem c with hsame | hcapital
      · rwa [hsame]
      · have hcapitals : (asciiCapitals.all fun c => c.toLower.toNat < 128) = true := by decide
        exact of_decide_eq_true (List.all_eq_true.mp hcapitals c hcapital)
    exact ⟨by rw [lowerChar, if_pos hbound, toLower_toLower], by omega⟩
  · next hwide =>
    split at h
    · have hdotted : IsSmall 'i' ∧ IsSmall (Char.ofNat 0x307) := by decide
      rcases List.mem_pair.mp h with rfl | rfl
      · exact hdotted.1
      · exact hdotted.2
    · next hplain =>
      cases hcode : lowerCode c.toNat with
      | some image =>
        rw [hcode] at h
        obtain rfl := List.mem_singleton.mp h
        obtain ⟨hchar, hdotted, hnone⟩ := lowerCode_of_lowerCode hcode
        exact isSmall_of_lowerCode_eq_none hchar hdotted hnone
      | none =>
        rw [hcode] at h
        obtain rfl := List.mem_singleton.mp h
        exact ⟨by rw [lowerChar, if_neg hwide, if_neg hplain, hcode], hc⟩

/-- A text in small letters consists of small letters, whatever was in front of it. -/
theorem isSmall_of_mem_lowerFrom {before cs : List Char} {d : Char}
    (h : d ∈ lowerFrom before cs) : IsSmall d := by
  induction cs generalizing before with
  | nil => cases h
  | cons c rest ih =>
    rw [lowerFrom] at h
    split at h
    · rcases List.mem_cons.mp h with rfl | h
      · split <;> decide
      · exact ih h
    · next hsigma =>
      rcases List.mem_append.mp h with h | h
      · exact isSmall_of_mem_lowerChar (fun hc => hsigma (beq_iff_eq.mpr hc)) h
      · exact ih h

/-- Small letters stay as they are. -/
theorem lowerFrom_eq_self {before cs : List Char} (h : ∀ c ∈ cs, IsSmall c) :
    lowerFrom before cs = cs := by
  induction cs generalizing before with
  | nil => rfl
  | cons c rest ih =>
    obtain ⟨⟨hc, hsigma⟩, hrest⟩ := List.forall_mem_cons.mp h
    rw [lowerFrom, if_neg (fun hs => hsigma (beq_iff_eq.mp hs)), hc, ih hrest,
      List.singleton_append]

theorem isSmall_of_mem_lowerCase {s : String} {d : Char} (h : d ∈ (lowerCase s).toList) :
    IsSmall d := by
  rw [lowerCase, String.toList_ofList] at h
  exact isSmall_of_mem_lowerFrom h

theorem lowerCase_eq_self {s : String} (h : ∀ c ∈ s.toList, IsSmall c) : lowerCase s = s := by
  rw [lowerCase, lowerFrom_eq_self h, String.ofList_toList]

/-- A text in small letters stays as it is. -/
@[simp] theorem lowerCase_lowerCase (s : String) : lowerCase (lowerCase s) = lowerCase s :=
  lowerCase_eq_self fun _ => isSmall_of_mem_lowerCase

/-! ## The case of ASCII letters -/

/-- No ASCII letter is skipped when the end of a word is looked for. -/
theorem not_ignorable_of_letter {code : Nat} (hfirst : 65 ≤ code) (hlast : code ≤ 122)
    (hgap : code ≤ 90 ∨ 97 ≤ code) : inRanges caseIgnorableRanges code = false := by
  have hranges : (caseIgnorableRanges.all fun range =>
      Nat.blt range.2 65 || Nat.blt 122 range.1 || Nat.blt 90 range.1 && Nat.blt range.2 97) =
        true := by
    decide +kernel
  refine List.any_eq_false.mpr fun range hrange => ?_
  have hoff := List.all_eq_true.mp hranges range hrange
  simp only [Bool.or_eq_true, Bool.and_eq_true, Nat.blt_eq] at hoff
  simp only [Bool.and_eq_true, decide_eq_true_eq]
  omega

theorem nextIsCased_map_toLower (cs : List Char) :
    nextIsCased (cs.map Char.toLower) = nextIsCased cs := by
  induction cs with
  | nil => rfl
  | cons c rest ih =>
    have hskipped : inRanges caseIgnorableRanges c.toLower.toNat =
        inRanges caseIgnorableRanges c.toNat := by
      rcases toLower_eq_self_or_mem c with hsame | hcapital
      · rw [hsame]
      · have hletters : (asciiCapitals.all fun c => 65 ≤ c.toNat ∧ c.toNat ≤ 90 ∧
            97 ≤ c.toLower.toNat ∧ c.toLower.toNat ≤ 122) = true := by
          decide
        obtain ⟨hfirst, hlast, hfirst', hlast'⟩ :=
          of_decide_eq_true (List.all_eq_true.mp hletters c hcapital)
        rw [not_ignorable_of_letter hfirst (by omega) (.inl hlast),
          not_ignorable_of_letter (by omega) hlast' (.inr hfirst')]
    have hcased : inRanges casedRanges c.toLower.toNat = inRanges casedRanges c.toNat :=
      apply_toLower (f := fun c => inRanges casedRanges c.toNat) (by decide) c
    rw [List.map_cons, nextIsCased, nextIsCased, hskipped, hcased, ih]

/-- The case of ASCII letters does not count for the form in small letters. -/
theorem lowerFrom_map_toLower (before cs : List Char) :
    lowerFrom (before.map Char.toLower) (cs.map Char.toLower) = lowerFrom before cs := by
  induction cs generalizing before with
  | nil => rfl
  | cons c rest ih =>
    have hsigma : (c.toLower.toNat == 0x3A3) = (c.toNat == 0x3A3) :=
      apply_toLower (f := fun c => c.toNat == 0x3A3) (by decide) c
    have himage : lowerChar c.toLower = lowerChar c := apply_toLower (by decide) c
    have hrest := ih (c :: before)
    rw [List.map_cons] at hrest
    rw [List.map_cons, lowerFrom, lowerFrom, hsigma, himage, hrest, nextIsCased_map_toLower,
      nextIsCased_map_toLower]

theorem sameUpToAsciiCase_iff {s t : String} :
    sameUpToAsciiCase s t = true ↔ s.toList.map Char.toLower = t.toList.map Char.toLower :=
  beq_iff_eq

/-- Texts that are the same up to ASCII case have the same form in small letters. -/
theorem lowerCase_eq_of_same {s t : String} (h : sameUpToAsciiCase s t = true) :
    lowerCase s = lowerCase t := by
  have hlower : ∀ s : String,
      lowerCase s = String.ofList (lowerFrom [] (s.toList.map Char.toLower)) :=
    fun s => congrArg String.ofList (lowerFrom_map_toLower [] s.toList).symm
  rw [hlower s, hlower t, sameUpToAsciiCase_iff.mp h]

/-- A text in small letters that is the same as another one up to ASCII case is its form in small
    letters. -/
theorem eq_lowerCase_of_same {s t : String} (hs : lowerCase s = s)
    (h : sameUpToAsciiCase s t = true) : s = lowerCase t := by
  rw [← lowerCase_eq_of_same h, hs]

/-- Texts that are the same up to ASCII case are the same as the same texts. -/
theorem same_iff_of_same {s t : String} (h : sameUpToAsciiCase s t = true) (u : String) :
    sameUpToAsciiCase u s = true ↔ sameUpToAsciiCase u t = true := by
  rw [sameUpToAsciiCase_iff, sameUpToAsciiCase_iff, sameUpToAsciiCase_iff.mp h]

end BootEngine.Text
