import ApiCatalog.Text.Casing

/-!
Capitals in ASCII. Of the ASCII characters only letters stand in the capital of another character:
a sign is in the capital of a character only if it is that character.
-/

namespace ApiCatalog.Text

structure IsSign (c : Char) : Prop where
  ascii : c.toNat < 128
  plain : c.isAlpha = false

theorem not_isSign_ofNat {n : Nat} (valid : n.isValidChar) (beyond : 128 ≤ n) :
    ¬ IsSign (Char.ofNat n) := by
  intro sign
  have ascii := sign.ascii
  rw [Char.ofNat, dif_pos valid] at ascii
  exact absurd ascii (Nat.not_lt.mpr beyond)

theorem forall_ascii (property : Char → Prop) (each : ∀ n < 128, property (Char.ofNat n))
    {c : Char} (ascii : c.toNat < 128) : property c := by
  have known := each c.toNat ascii
  rwa [Char.ofNat_toNat] at known

theorem ascii_of_le {c bound : Char} (below : c.val ≤ bound.val) (ascii : bound.toNat < 128) :
    c.toNat < 128 :=
  Nat.lt_of_le_of_lt (UInt32.le_iff_toNat_le.mp below) ascii

theorem ascii_of_isDigit {c : Char} (digit : c.isDigit = true) : c.toNat < 128 :=
  @ascii_of_le c '9' (of_decide_eq_true (Bool.and_eq_true_iff.mp digit).2) (by decide)

theorem ascii_of_isLower {c : Char} (small : c.isLower = true) : c.toNat < 128 :=
  @ascii_of_le c 'z' (of_decide_eq_true (Bool.and_eq_true_iff.mp small).2) (by decide)

theorem ascii_of_isAlphanum {c : Char} (sign : c.isAlphanum = true) : c.toNat < 128 := by
  rcases Bool.or_eq_true_iff.mp sign with letter | digit
  · rcases Bool.or_eq_true_iff.mp letter with capital | small
    · exact @ascii_of_le c 'Z' (of_decide_eq_true capital).2 (by decide)
    · exact ascii_of_isLower small
  · exact ascii_of_isDigit digit

theorem eq_of_toUpper_isSign {c : Char} (ascii : c.toNat < 128) (sign : IsSign c.toUpper) :
    c.toUpper = c := by
  have each := forall_ascii (fun c => c.toUpper.isAlpha = true ∨ c.toUpper = c) (by decide) ascii
  rcases each with letter | same
  · exact absurd (letter.symm.trans sign.plain) (by decide)
  · exact same

theorem upperChar_of_ascii {c : Char} (ascii : c.toNat < 128) : upperChar c = [c.toUpper] :=
  if_pos ascii

theorem lowerAfter_of_ascii {text : List Char} (ascii : ∀ c ∈ text, c.toNat < 128)
    (casedBehind : Bool) : lowerAfter casedBehind text = text.map Char.toLower := by
  induction text generalizing casedBehind with
  | nil => rfl
  | cons c text inner =>
    obtain ⟨first, ascii⟩ := List.forall_mem_cons.mp ascii
    have other : c ≠ 'Σ' := by
      rintro rfl
      exact absurd first (by decide)
    rw [lowerAfter, if_neg other, lowerChar, if_pos first, inner ascii]
    rfl

theorem lower_of_ascii {c : Char} (ascii : c.toNat < 128) : lower [c] = [c.toLower] :=
  lowerAfter_of_ascii (by simpa using ascii) false

theorem toUpper_ascii {c : Char} (ascii : c.toNat < 128) : c.toUpper.toNat < 128 :=
  forall_ascii (fun c => c.toUpper.toNat < 128) (by decide) ascii

theorem toLower_ascii {c : Char} (ascii : c.toNat < 128) : c.toLower.toNat < 128 :=
  forall_ascii (fun c => c.toLower.toNat < 128) (by decide) ascii

theorem toUpper_toLower {c : Char} (ascii : c.toNat < 128) : c.toLower.toUpper = c.toUpper :=
  forall_ascii (fun c => c.toLower.toUpper = c.toUpper) (by decide) ascii

theorem toLower_toUpper {c : Char} (ascii : c.toNat < 128) : c.toUpper.toLower = c.toLower :=
  forall_ascii (fun c => c.toUpper.toLower = c.toLower) (by decide) ascii

/-- The images of a run are beyond ASCII, or the one image is an ASCII letter. -/
def CaseRun.AvoidsSigns (run : CaseRun) : Prop :=
  (128 ≤ run.first + run.shift ∧ (run.last + run.shift < 0xd800 ∨
      0xe000 ≤ run.first + run.shift ∧ run.last + run.shift < 0x110000)) ∨
    (run.first = run.last ∧ (Char.ofNat (run.first + run.shift).toNat).isAlpha = true)

instance (run : CaseRun) : Decidable run.AvoidsSigns :=
  inferInstanceAs (Decidable (_ ∨ _))

theorem CaseRun.AvoidsSigns.not_isSign {run : CaseRun} (avoids : run.AvoidsSigns) {point n : Nat}
    (image : run.image? point = some n) : ¬ IsSign (Char.ofNat n) := by
  unfold CaseRun.image? at image
  split at image
  · rename_i inside
    obtain rfl := Option.some.inj image
    rcases avoids with ⟨beyond, valid⟩ | ⟨single, letter⟩
    · refine not_isSign_ofNat ?_ (by omega)
      rcases valid with low | ⟨high, bounded⟩
      · exact Or.inl (by omega)
      · exact Or.inr (by omega)
    · have same : point = run.first := by omega
      subst same
      exact fun sign => absurd (letter.symm.trans sign.plain) (by decide)
  · cases image

def SequencesAvoidSigns (sequences : List (Nat × List Nat)) : Prop :=
  ∀ entry ∈ sequences, ∀ point ∈ entry.2,
    point.isValidChar ∧ 128 ≤ point ∨ (Char.ofNat point).isAlpha = true

theorem avoidsSigns_upperRuns : ∀ run ∈ upperRuns, run.AvoidsSigns := by
  decide +kernel

theorem avoidsSigns_upperSequences : SequencesAvoidSigns upperSequences := by
  unfold SequencesAvoidSigns
  decide +kernel

theorem avoidsSigns_lowerRuns : ∀ run ∈ lowerRuns, run.AvoidsSigns := by
  decide +kernel

theorem avoidsSigns_lowerSequences : SequencesAvoidSigns lowerSequences := by
  unfold SequencesAvoidSigns
  decide

theorem eq_of_mem_mapCase {sequences : List (Nat × List Nat)} {runs : List CaseRun}
    (sequencesAvoid : SequencesAvoidSigns sequences) (runsAvoid : ∀ run ∈ runs, run.AvoidsSigns)
    {c sign : Char} (isSign : IsSign sign) (member : sign ∈ mapCase sequences runs c) :
    sign = c := by
  unfold mapCase at member
  split at member
  · rename_i points found
    obtain ⟨point, listed, rfl⟩ := List.mem_map.mp member
    rcases sequencesAvoid _ (List.mem_of_find?_eq_some found) point listed with
      ⟨valid, beyond⟩ | letter
    · exact absurd isSign (not_isSign_ofNat valid beyond)
    · exact absurd (letter.symm.trans isSign.plain) (by decide)
  · cases found : runs.findSome? (·.image? c.toNat) with
    | none => simpa [found] using member
    | some n =>
      obtain ⟨run, listed, image⟩ := List.exists_of_findSome?_eq_some found
      have same : sign = Char.ofNat n := by simpa [found] using member
      exact absurd (same ▸ isSign) ((runsAvoid run listed).not_isSign image)

theorem eq_of_mem_upperChar {c sign : Char} (isSign : IsSign sign) (member : sign ∈ upperChar c) :
    sign = c := by
  unfold upperChar at member
  split at member
  · rename_i ascii
    obtain rfl := List.mem_singleton.mp member
    exact eq_of_toUpper_isSign ascii isSign
  · exact eq_of_mem_mapCase avoidsSigns_upperSequences avoidsSigns_upperRuns isSign member

theorem eq_of_toLower_isSign {c : Char} (ascii : c.toNat < 128) (sign : IsSign c.toLower) :
    c.toLower = c := by
  have each := forall_ascii (fun c => c.toLower.isAlpha = true ∨ c.toLower = c) (by decide) ascii
  rcases each with letter | same
  · exact absurd (letter.symm.trans sign.plain) (by decide)
  · exact same

theorem eq_of_mem_lower {c sign : Char} (isSign : IsSign sign) (member : sign ∈ lower [c]) :
    sign = c := by
  by_cases sigma : c = 'Σ'
  · subst sigma
    obtain rfl : sign = 'σ' := by simpa [lower, lowerAfter] using member
    exact absurd isSign.ascii (by decide)
  · have single : sign ∈ lowerChar c := by simpa [lower, lowerAfter, sigma] using member
    unfold lowerChar at single
    split at single
    · rename_i ascii
      obtain rfl := List.mem_singleton.mp single
      exact eq_of_toLower_isSign ascii isSign
    · exact eq_of_mem_mapCase avoidsSigns_lowerSequences avoidsSigns_lowerRuns isSign single

end ApiCatalog.Text
