import ApiCatalog.Proofs.Yaml.JsonFlow

/-!
The tokens of JSON texts. If an object stands between blanks and there is no tab but in escapes, the
tokens are those of its tree; otherwise they stop before the end.
-/

namespace ApiCatalog

open Json Yaml

def Json.Source.IsObject : Source → Prop
  | .emptyObject _ | .object _ _ => True
  | _ => False

namespace Yaml

namespace ScanState

variable {bound depth : Nat} {ready : Bool} {s s' : ScanState} {gap rest : List Char}
  {tokens : List Token}

theorem scans_of_isObject {source : Source} (object : source.IsObject)
    (usual : HasUsualBreaks source.text) (blank : ∀ c ∈ gap, isSpace c = true) :
    Scans bound (At bound ⟨gap ++ (source.text ++ rest), tokens, depth, ready⟩)
      ('\t' ∉ gap ∧ '\t' ∉ source.text)
      (At bound ⟨rest, tokens ++ source.flow.tokens, depth, false⟩) := by
  cases source with
  | emptyObject inner => exact scans_empty (.inr ⟨rfl, rfl, rfl, rfl⟩) blank inner.blank
  | object inner members =>
    exact scans_object blank (passesMembers members
      (usual.part fun c member => by simp [Source.text, member]))
  | string | word | number | emptyList | list => exact object.elim

theorem At.ends (at' : At bound ⟨gap, tokens, depth, ready⟩ s)
    (blank : ∀ c ∈ gap, c = ' ' ∨ c = '\n' ∨ c = '\r') :
    ∃ s', s.step bound = .ok s' ∧ s'.done = true ∧ s'.reversed = .streamEnd :: tokens.reverse := by
  rw [← List.append_nil gap] at at'
  obtain ⟨s', ⟨arrives, unwound⟩, there, -⟩ := at'.arrives blank (nofun : Stops [])
  have head : s'.here.head = none := by
    rw [Cursor.head, there.rest]
    rfl
  refine ⟨{ ({ s' with possible := none }.allowKey false).push .streamEnd with done := true }, ?_, rfl,
    congrArg (Token.streamEnd :: ·) there.tokens⟩
  have fetched : s.fetch bound = s'.fetchEnd := by
    unfold fetch
    rw [arrives]
    simp only [Except.bind, Bind.bind, unwound, head]
  rw [step, fetched, fetchEnd, there.unwind, there.dropKey]
  rfl

theorem run_of_reaches (reaches : Reaches bound s s') {fuel : Nat}
    (enough : s.here.rest.length + 2 ≤ fuel) :
    ∃ left, s'.here.rest.length + 2 ≤ left ∧ run bound fuel s = run bound left s' := by
  induction reaches generalizing fuel with
  | refl => exact ⟨fuel, enough, rfl⟩
  | step running goes shorter _ inner =>
    obtain ⟨fuel, rfl⟩ := Nat.exists_eq_add_of_le' (show 1 ≤ fuel by omega)
    obtain ⟨left, room, same⟩ := @inner fuel (by omega)
    refine ⟨left, room, Eq.trans ?_ same⟩
    rw [run, running]
    simp only [Bool.false_eq_true, if_false, goes]

theorem run_of_ends {fuel : Nat} {failure : Failure} (running : s.done = false)
    (fails : s.step bound = .error failure) :
    run bound (fuel + 1) s = (s.reversed.reverse.take s.settled, some failure) := by
  rw [run, running]
  simp only [Bool.false_eq_true, if_false, fails]

theorem start_at {text : List Char} : At (text.length + 2) ⟨text, [], 0, true⟩ (start text) :=
  { running := rfl
    margin := rfl
    noBlocks := rfl
    free := nofun
    freeOuter := nofun
    rest := rfl
    tokens := rfl
    depth := rfl
    ready := fun _ => rfl
    unended := nofun
    room := Nat.lt_add_of_pos_right Nat.two_pos }

end ScanState

open ScanState

theorem tokensOf_eq_run {before : Gap} {source : Source} (object : source.IsObject)
    {text rest : List Char} (parts : text = before.chars ++ (source.text ++ rest)) :
    tokensOf text = run (text.length + 2) (text.length + 2) (start text) := by
  have noMark : (start text).here.isAt '\uFEFF' = false := by
    change (text.head? == some '\uFEFF') = false
    rw [parts, beq_eq_false_iff_ne]
    intro first
    rcases before with ⟨chars, blank⟩
    cases chars with
    | cons c chars =>
      cases first
      exact absurd (blank _ List.mem_cons_self) (by decide)
    | nil =>
      cases source with
      | emptyObject | object => cases first
      | string | word | number | emptyList | list => exact object.elim
  rw [tokensOf, noMark]
  rfl

theorem tokensOf_object {before after : Gap} {source : Source} (object : source.IsObject)
    {text : List Char} (parts : text = before.chars ++ (source.text ++ after.chars))
    (usual : HasUsualBreaks text) :
    ('\t' ∉ text → tokensOf text = (source.flow.tokens ++ [.streamEnd], none)) ∧
      ('\t' ∈ text → .streamEnd ∉ (tokensOf text).1) := by
  have inside : HasUsualBreaks source.text := usual.part fun c member => by simp [parts, member]
  have begins := @start_at text
  have scans := @scans_of_isObject (text.length + 2) 0 true before.chars after.chars [] source
    object inside before.blank (start text) (parts ▸ begins)
  have enough : (start text).here.rest.length + 2 ≤ text.length + 2 := Nat.le_refl _
  rw [tokensOf_eq_run object parts]
  constructor
  · intro clear
    simp only [parts, List.mem_append, not_or] at clear
    obtain ⟨s', reached, there⟩ := scans.1 ⟨clear.1, clear.2.1⟩
    have usualAfter : ∀ c ∈ after.chars, c = ' ' ∨ c = '\n' ∨ c = '\r' := fun c member =>
      eq_of_isSpace (after.blank c member) fun same => clear.2.2 (same ▸ member)
    obtain ⟨s'', goes, ended, reversed⟩ := there.ends usualAfter
    obtain ⟨fuel, room, same⟩ := run_of_reaches reached enough
    obtain ⟨fuel, rfl⟩ := Nat.exists_eq_add_of_le' (show 2 ≤ fuel by omega)
    rw [same, run, there.running]
    simp only [Bool.false_eq_true, if_false, goes]
    rw [run, ended, reversed]
    simp
  · intro tab
    obtain ⟨s', failure, reached, running, unended, fails⟩ : Fails (text.length + 2) (start text) := by
      by_cases clear : '\t' ∉ before.chars ∧ '\t' ∉ source.text
      · obtain ⟨s', reached, there⟩ := scans.1 clear
        have later : '\t' ∈ after.chars := by
          simp only [parts, List.mem_append] at tab
          exact (tab.resolve_left clear.1).resolve_left clear.2
        obtain ⟨s'', failure, more, ends⟩ :=
          At.fails_of_tab ((List.append_nil after.chars).symm ▸ there) after.blank later
        exact ⟨s'', failure, reached.trans more, ends⟩
      · exact scans.2 clear
    obtain ⟨fuel, room, same⟩ := run_of_reaches reached enough
    obtain ⟨fuel, rfl⟩ := Nat.exists_eq_add_of_le' (show 1 ≤ fuel by omega)
    rw [same, run_of_ends running fails]
    exact fun member => unended (List.mem_reverse.mp (List.mem_of_mem_take member))

end Yaml

end ApiCatalog
