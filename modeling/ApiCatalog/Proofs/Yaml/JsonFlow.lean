import ApiCatalog.Proofs.Yaml.FlowNodes
import ApiCatalog.Proofs.Yaml.ScanPlain
import ApiCatalog.Proofs.Yaml.ScanScalars

/-!
JSON sources as flow collections. The tokens of a source are those of a tree whose keys are marked if
their colons are near, and scanning the source gives them unless a tab stands between two of them.
-/

namespace ApiCatalog

open Json Yaml

mutual

def Json.Source.flow : Source → Flow
  | .string pieces => .scalar false (stringText pieces)
  | .word word _ => .scalar true word.1
  | .number numeral => .scalar true numeral.text
  | .emptyList _ => .sequence .nil
  | .list _ items => .sequence items.flow
  | .emptyObject _ => .mapping .nil
  | .object _ members => .mapping members.flow

def Json.Items.flow : Items → FlowItems
  | .last item _ => .cons item.flow .nil
  | .more item _ _ rest => .cons item.flow rest.flow

def Json.Members.flow : Members → FlowEntries
  | .last name close _ value _ => .cons (stringText name)
    (decide (ScanState.IsNear (quoted name).length close.chars)) value.flow .nil
  | .more name close _ value _ _ rest => .cons (stringText name)
    (decide (ScanState.IsNear (quoted name).length close.chars)) value.flow rest.flow

end

theorem Json.Items.tokens_flow (items : Items) :
    items.flow.tokens false = .flowEntry :: items.flow.tokens true := by
  cases items <;> rfl

theorem Json.Members.tokens_flow (members : Members) :
    members.flow.tokens false = .flowEntry :: members.flow.tokens true := by
  cases members <;> rfl

mutual

/-- Whether the colon behind every key is on the line of the key, and at most 1024 characters from
its beginning. -/
def Json.Source.Near : Source → Prop
  | .list _ items => items.Near
  | .object _ members => members.Near
  | _ => True

def Json.Items.Near : Items → Prop
  | .last item _ => item.Near
  | .more item _ _ rest => item.Near ∧ rest.Near

def Json.Members.Near : Members → Prop
  | .last name close _ value _ =>
    ScanState.IsNear (quoted name).length close.chars ∧ value.Near
  | .more name close _ value _ _ rest =>
    ScanState.IsNear (quoted name).length close.chars ∧ value.Near ∧ rest.Near

end

mutual

theorem Json.Source.marked_flow : (source : Source) → (source.flow.Marked ↔ source.Near)
  | .string _ | .word _ _ | .number _ | .emptyList _ | .emptyObject _ => Iff.rfl
  | .list _ items => items.marked_flow
  | .object _ members => members.marked_flow

theorem Json.Items.marked_flow : (items : Items) → (items.flow.Marked ↔ items.Near)
  | .last item _ => (and_iff_left trivial).trans item.marked_flow
  | .more item _ _ rest => and_congr item.marked_flow rest.marked_flow

theorem Json.Members.marked_flow : (members : Members) → (members.flow.Marked ↔ members.Near)
  | .last _ _ _ value _ =>
    and_congr decide_eq_true_iff ((and_iff_left trivial).trans value.marked_flow)
  | .more _ _ _ value _ _ rest =>
    and_congr decide_eq_true_iff (and_congr value.marked_flow rest.marked_flow)

end

/-! Leaves. -/

theorem Json.isLeaf_of_mem_valueWords {word : List Char × Json} (listed : word ∈ valueWords) :
    IsLeaf word.1 := by
  have chars : ∀ word ∈ valueWords, word.1.all isLeafChar = true := by decide
  refine ⟨List.all_eq_true.mp (chars word listed), ?_⟩
  simp only [valueWords, List.mem_cons, List.not_mem_nil, or_false] at listed
  rcases listed with rfl | rfl | rfl | rfl | rfl | rfl
  case inr.inr.inr.inr.inr =>
    exact ⟨'-', "Infinity".toList, rfl, .inr ⟨rfl, 'I', "nfinity".toList, rfl, by decide⟩⟩
  all_goals exact ⟨_, _, rfl, .inl (by decide)⟩

theorem isLeafChar_of_isDigit {c : Char} (digit : c.isDigit = true) : isLeafChar c = true := by
  simp [isLeafChar, Char.isAlphanum, digit]

theorem Json.Exponent.isLeafChar_of_mem_text {exponent : Exponent} {c : Char}
    (member : c ∈ exponent.text) : isLeafChar c = true := by
  rcases List.mem_cons.mp member with rfl | member
  · rcases exponent.marks with mark | mark <;> rw [mark] <;> decide
  · rcases List.mem_append.mp member with sign | member
    · rcases exponent.signs c (Option.mem_toList.mp sign) with rfl | rfl <;> decide
    · exact isLeafChar_of_isDigit (exponent.digit c member)

theorem Json.Numeral.isLeafChar_of_mem_tail {numeral : Numeral} {c : Char}
    (member : c ∈ numeral.tail) : isLeafChar c = true := by
  rcases List.mem_append.mp member with fraction | exponent
  · split at fraction
    · cases fraction
    · rcases List.mem_cons.mp fraction with rfl | fraction
      · decide
      · exact isLeafChar_of_isDigit (numeral.fractionDigit c fraction)
  · cases held : numeral.exponent with
    | none =>
      rw [held] at exponent
      cases exponent
    | some found =>
      rw [held] at exponent
      exact found.isLeafChar_of_mem_text exponent

theorem Json.Numeral.isLeaf_text (numeral : Numeral) : IsLeaf numeral.text := by
  obtain ⟨first, more, whole, startsDigit⟩ := numeral.exists_whole
  have letter : first.isAlphanum = true := by simp [Char.isAlphanum, startsDigit]
  constructor
  · intro c member
    rcases List.mem_append.mp member with member | tail
    · rcases List.mem_append.mp member with sign | whole
      · split at sign
        · rw [List.mem_singleton.mp sign]
          decide
        · cases sign
      · exact isLeafChar_of_isDigit (numeral.wholeDigit c whole)
    · exact isLeafChar_of_mem_tail tail
  · rw [Numeral.text, whole]
    split
    · exact ⟨'-', first :: more ++ numeral.tail, rfl, .inr ⟨rfl, first, _, rfl, letter⟩⟩
    · exact ⟨first, more ++ numeral.tail, rfl, .inl letter⟩

namespace Yaml

/-- Whether all breaks in a text are carriage returns and line feeds. -/
def HasUsualBreaks (text : List Char) : Prop :=
  ∀ c ∈ text, isBreak c = true → c = '\n' ∨ c = '\r'

theorem HasUsualBreaks.part {text part : List Char} (usual : HasUsualBreaks text)
    (inside : ∀ c ∈ part, c ∈ text) : HasUsualBreaks part :=
  fun c member => usual c (inside c member)

theorem HasUsualBreaks.unbroken {pieces : List Piece} (usual : HasUsualBreaks (quoted pieces)) :
    ∀ c ∈ pieces.flatMap Piece.text, isBreak c = false := by
  intro c member
  obtain ⟨piece, -, part⟩ := List.mem_flatMap.mp member
  have visible := Piece.visible_of_mem_text part
  rw [← Bool.not_eq_true]
  intro breaks
  have inside : c ∈ quoted pieces := by
    simp only [quoted, List.mem_cons, List.mem_append]
    exact .inr (.inl member)
  rcases usual c inside breaks with rfl | rfl <;> exact absurd visible (by decide)

theorem tab_notMem_quoted (pieces : List Piece) : '\t' ∉ quoted pieces := by
  intro member
  simp only [quoted, List.mem_cons, List.mem_append, List.not_mem_nil, or_false] at member
  rcases member with same | member | same
  · exact absurd same (by decide)
  · obtain ⟨piece, -, part⟩ := List.mem_flatMap.mp member
    exact absurd (Piece.visible_of_mem_text part) (by decide)
  · exact absurd same (by decide)

theorem IsLeaf.tab_notMem {text : List Char} (leaf : IsLeaf text) : '\t' ∉ text :=
  fun member => absurd (leaf.chars '\t' member) (by decide)

namespace ScanState

variable {bound depth : Nat} {ready : Bool} {gap after rest : List Char} {tokens : List Token}

theorem Scans.imp {before after after' : ScanState → Prop} {clear : Prop}
    (scans : Scans bound before clear after) (weaker : ∀ s, after s → after' s) :
    Scans bound before clear after' := by
  intro s holds
  obtain ⟨goes, stops⟩ := scans s holds
  refine ⟨fun free => ?_, stops⟩
  obtain ⟨s', reached, ends⟩ := goes free
  exact ⟨s', reached, weaker s' ends⟩

/-- Scanning passes over a source; of the blanks behind it a part is left, with the tab if there is
one. -/
def Passes (source : Source) : Prop :=
  ∀ ⦃bound depth : Nat⦄ ⦃ready : Bool⦄ ⦃gap after rest : List Char⦄ ⦃tokens : List Token⦄,
    (∀ c ∈ gap, isSpace c = true) → (∀ c ∈ after, isSpace c = true) → ClosesPlain rest →
      ∃ left, (∀ c ∈ left, isSpace c = true) ∧ ('\t' ∈ left ↔ '\t' ∈ after) ∧
        Scans bound (At bound ⟨gap ++ (source.text ++ (after ++ rest)), tokens, depth + 1, ready⟩)
          ('\t' ∉ gap ∧ '\t' ∉ source.text)
          (At bound ⟨left ++ rest, tokens ++ source.flow.tokens, depth + 1, false⟩)

def PassesItems (items : Items) : Prop :=
  ∀ ⦃bound depth : Nat⦄ ⦃ready : Bool⦄ ⦃gap rest : List Char⦄ ⦃tokens : List Token⦄,
    (∀ c ∈ gap, isSpace c = true) →
      Scans bound (At bound ⟨gap ++ (items.text ++ ']' :: rest), tokens, depth + 1, ready⟩)
        ('\t' ∉ gap ∧ '\t' ∉ items.text)
        (At bound ⟨rest, tokens ++ items.flow.tokens true, depth, false⟩)

def PassesMembers (members : Members) : Prop :=
  ∀ ⦃bound depth : Nat⦄ ⦃gap rest : List Char⦄ ⦃tokens : List Token⦄,
    (∀ c ∈ gap, isSpace c = true) →
      Scans bound (At bound ⟨gap ++ (members.text ++ '\x7d' :: rest), tokens, depth + 1, true⟩)
        ('\t' ∉ gap ∧ '\t' ∉ members.text)
        (At bound ⟨rest, tokens ++ members.flow.tokens true, depth, false⟩)

theorem passes_leaf {source : Source} (leaf : IsLeaf source.text)
    (flow : source.flow = .scalar true source.text) : Passes source := by
  intro bound depth ready gap after rest tokens blank blankAfter closes
  obtain ⟨left, blankLeft, tab, scans⟩ := scans_plain blank leaf blankAfter closes
  refine ⟨left, blankLeft, tab, ?_⟩
  rw [flow]
  exact scans.of_iff (and_iff_left leaf.tab_notMem).symm

theorem passes_string {pieces : List Piece} (usual : HasUsualBreaks (quoted pieces)) :
    Passes (.string pieces) := by
  intro bound depth ready gap after rest tokens blank blankAfter closes
  refine ⟨after, blankAfter, Iff.rfl, ?_⟩
  exact ((scans_quoted blank usual.unbroken).imp fun s both => both.1).of_iff
    (and_iff_left (tab_notMem_quoted pieces)).symm

theorem scans_empty {opens closes : Char} {first last : Token} {inner : List Char}
    (signs : opens = '[' ∧ first = .flowSequenceStart ∧ closes = ']' ∧ last = .flowSequenceEnd ∨
      opens = '\x7b' ∧ first = .flowMappingStart ∧ closes = '\x7d' ∧ last = .flowMappingEnd)
    (blank : ∀ c ∈ gap, isSpace c = true) (blankInner : ∀ c ∈ inner, isSpace c = true) :
    Scans bound (At bound ⟨gap ++ (opens :: (inner ++ [closes]) ++ rest), tokens, depth, ready⟩)
      ('\t' ∉ gap ∧ '\t' ∉ opens :: (inner ++ [closes]))
      (At bound ⟨rest, tokens ++ [first, last], depth, false⟩) := by
  have starts : opens = '[' ∧ first = .flowSequenceStart ∨
      opens = '\x7b' ∧ first = .flowMappingStart :=
    signs.imp (fun sign => ⟨sign.1, sign.2.1⟩) fun sign => ⟨sign.1, sign.2.1⟩
  have ends : closes = ']' ∧ last = .flowSequenceEnd ∨ closes = '\x7d' ∧ last = .flowMappingEnd :=
    signs.imp (fun sign => sign.2.2) fun sign => sign.2.2
  have scans := (@scans_flowStart bound depth ready gap (inner ++ closes :: rest) tokens _ _ blank
    starts).trans (scans_flowEnd blankInner ends)
  have solid : '\t' ≠ opens ∧ '\t' ≠ closes := by
    rcases signs with ⟨rfl, -, rfl, -⟩ | ⟨rfl, -, rfl, -⟩ <;> decide
  have joined : gap ++ (opens :: (inner ++ [closes]) ++ rest) =
      gap ++ opens :: (inner ++ closes :: rest) := by simp
  have last : tokens ++ [first, last] = tokens ++ [first] ++ [last] := by simp
  rw [joined, last]
  exact scans.of_iff (by simp [solid])

theorem scans_member {name : List Piece} {close far : Gap} {value : Source}
    (usual : HasUsualBreaks (quoted name)) (passes : Passes value)
    (blank : ∀ c ∈ gap, isSpace c = true) (blankAfter : ∀ c ∈ after, isSpace c = true)
    (closes : ClosesPlain rest) :
    ∃ left, (∀ c ∈ left, isSpace c = true) ∧ ('\t' ∈ left ↔ '\t' ∈ after) ∧
      Scans bound (At bound ⟨gap ++ (quoted name ++ (close.chars ++ ':' :: (far.chars ++
          (value.text ++ (after ++ rest))))), tokens, depth + 1, true⟩)
        ('\t' ∉ gap ∧ '\t' ∉ close.chars ∧ '\t' ∉ far.chars ∧ '\t' ∉ value.text)
        (At bound ⟨left ++ rest, tokens ++ ((if IsNear (quoted name).length close.chars then [.key]
          else []) ++ .scalar false (stringText name) :: .value :: value.flow.tokens),
          depth + 1, false⟩) := by
  obtain ⟨left, blankLeft, tab, scans⟩ := passes far.blank blankAfter closes
  refine ⟨left, blankLeft, tab, ?_⟩
  let tail : List Char := close.chars ++ ':' :: (far.chars ++ (value.text ++ (after ++ rest)))
  have key : Scans bound (At bound ⟨gap ++ (quoted name ++ tail), tokens, depth + 1, true⟩)
      ('\t' ∉ gap) fun s =>
        At bound ⟨tail, tokens ++ [.scalar false (stringText name)], depth + 1, false⟩ s ∧
          IsNoted (quoted name).length s :=
    (scans_quoted blank usual.unbroken).imp fun s both => ⟨both.1, both.2 rfl⟩
  have all := (key.trans (scans_colon close.blank)).trans scans
  refine (all.of_iff (by simp only [and_assoc])).imp fun s at' => ?_
  have tokens' : ∀ marks more : List Token,
      tokens ++ (marks ++ [.scalar false (stringText name), .value]) ++ more =
        tokens ++ (marks ++ .scalar false (stringText name) :: .value :: more) := by simp
  rw [tokens'] at at'
  exact at'

theorem scans_object {inner : Gap} {members : Members} (blank : ∀ c ∈ gap, isSpace c = true)
    (passes : PassesMembers members) :
    Scans bound (At bound ⟨gap ++ ((Source.object inner members).text ++ rest), tokens, depth, ready⟩)
      ('\t' ∉ gap ∧ '\t' ∉ (Source.object inner members).text)
      (At bound ⟨rest, tokens ++ (Source.object inner members).flow.tokens, depth, false⟩) := by
  have joined : gap ++ ((Source.object inner members).text ++ rest) =
      gap ++ '\x7b' :: (inner.chars ++ (members.text ++ '\x7d' :: rest)) := by
    simp [Source.text]
  have tokens' : tokens ++ (Source.object inner members).flow.tokens =
      tokens ++ [.flowMappingStart] ++ members.flow.tokens true := by
    simp [Source.flow, Flow.tokens]
  rw [joined, tokens']
  refine ((scans_flowStart blank (.inr ⟨rfl, rfl⟩)).trans (passes inner.blank)).of_iff ?_
  simp [Source.text]

theorem closesPlain_cons {sign : Char} (listed : sign = ',' ∨ sign = ']' ∨ sign = '\x7d') :
    ClosesPlain (sign :: rest) := by
  rintro _ ⟨⟩
  exact .inr listed

mutual

theorem passes : (source : Source) → HasUsualBreaks source.text → Passes source
  | .string _, usual => passes_string usual
  | .word _ listed, _ => passes_leaf (isLeaf_of_mem_valueWords listed) rfl
  | .number numeral, _ => passes_leaf numeral.isLeaf_text rfl
  | .emptyList inner, _ => fun _ _ _ _ after _ _ blank blankAfter _ =>
    ⟨after, blankAfter, Iff.rfl, scans_empty (.inl ⟨rfl, rfl, rfl, rfl⟩) blank inner.blank⟩
  | .emptyObject inner, _ => fun _ _ _ _ after _ _ blank blankAfter _ =>
    ⟨after, blankAfter, Iff.rfl, scans_empty (.inr ⟨rfl, rfl, rfl, rfl⟩) blank inner.blank⟩
  | .list inner items, usual => by
    intro bound depth ready gap after rest tokens blank blankAfter _
    refine ⟨after, blankAfter, Iff.rfl, ?_⟩
    have row := passesItems items (usual.part fun c member => by simp [Source.text, member])
    have joined : gap ++ ((Source.list inner items).text ++ (after ++ rest)) =
        gap ++ '[' :: (inner.chars ++ (items.text ++ ']' :: (after ++ rest))) := by
      simp [Source.text]
    have tokens' : tokens ++ (Source.list inner items).flow.tokens =
        tokens ++ [.flowSequenceStart] ++ items.flow.tokens true := by
      simp [Source.flow, Flow.tokens]
    rw [joined, tokens']
    refine ((scans_flowStart blank (.inl ⟨rfl, rfl⟩)).trans (row inner.blank)).of_iff ?_
    simp [Source.text]
  | .object inner members, usual => fun _ _ _ _ after _ _ blank blankAfter _ =>
    ⟨after, blankAfter, Iff.rfl, scans_object blank (passesMembers members
      (usual.part fun c member => by simp [Source.text, member]))⟩

theorem passesItems : (items : Items) → HasUsualBreaks items.text → PassesItems items
  | .last item after, usual => by
    intro bound depth ready gap rest tokens blank
    have first := passes item (usual.part fun c member => by simp [Items.text, member])
    obtain ⟨left, blankLeft, tab, scans⟩ := @first bound depth ready gap after.chars (']' :: rest)
      tokens blank after.blank (closesPlain_cons (.inr (.inl rfl)))
    have joined : gap ++ ((Items.last item after).text ++ ']' :: rest) =
        gap ++ (item.text ++ (after.chars ++ ']' :: rest)) := by simp [Items.text]
    have tokens' : tokens ++ (Items.last item after).flow.tokens true =
        tokens ++ item.flow.tokens ++ [.flowSequenceEnd] := by
      simp [Items.flow, FlowItems.tokens]
    rw [joined, tokens']
    refine (scans.trans (scans_flowEnd blankLeft (.inl ⟨rfl, rfl⟩))).of_iff ?_
    simp [Items.text, tab, and_assoc]
  | .more item after inner more, usual => by
    intro bound depth ready gap rest tokens blank
    have first := passes item (usual.part fun c member => by simp [Items.text, member])
    have row := passesItems more (usual.part fun c member => by simp [Items.text, member])
    obtain ⟨left, blankLeft, tab, scans⟩ := @first bound depth ready gap after.chars
      (',' :: (inner.chars ++ (more.text ++ ']' :: rest))) tokens blank after.blank
      (closesPlain_cons (.inl rfl))
    have joined : gap ++ ((Items.more item after inner more).text ++ ']' :: rest) =
        gap ++ (item.text ++ (after.chars ++ ',' :: (inner.chars ++ (more.text ++ ']' :: rest)))) := by
      simp [Items.text]
    have tokens' : tokens ++ (Items.more item after inner more).flow.tokens true =
        tokens ++ item.flow.tokens ++ [.flowEntry] ++ more.flow.tokens true := by
      simp [Items.flow, FlowItems.tokens, more.tokens_flow]
    rw [joined, tokens']
    refine ((scans.trans (scans_flowEntry blankLeft)).trans (row inner.blank)).of_iff ?_
    simp [Items.text, tab, and_assoc]

theorem passesMembers : (members : Members) → HasUsualBreaks members.text → PassesMembers members
  | .last name close far value after, usual => by
    intro bound depth gap rest tokens blank
    have inside := passes value (usual.part fun c member => by simp [Members.text, member])
    have key : HasUsualBreaks (quoted name) := usual.part fun c member => by simp [Members.text, member]
    obtain ⟨left, blankLeft, tab, scans⟩ := @scans_member bound depth gap after.chars
      ('\x7d' :: rest) tokens name close far value key inside blank after.blank
      (closesPlain_cons (.inr (.inr rfl)))
    have all := scans.trans (scans_flowEnd blankLeft (.inr ⟨rfl, rfl⟩))
    have joined : gap ++ ((Members.last name close far value after).text ++ '\x7d' :: rest) =
        gap ++ (quoted name ++ (close.chars ++ ':' :: (far.chars ++ (value.text ++ (after.chars ++
          '\x7d' :: rest))))) := by simp [Members.text]
    rw [joined]
    refine (all.of_iff ?_).imp fun s at' => ?_
    · simp [Members.text, tab_notMem_quoted, tab, and_assoc]
    · simpa [Members.flow, FlowEntries.tokens] using at'
  | .more name close far value after inner more, usual => by
    intro bound depth gap rest tokens blank
    have inside := passes value (usual.part fun c member => by simp [Members.text, member])
    have row := passesMembers more (usual.part fun c member => by simp [Members.text, member])
    have key : HasUsualBreaks (quoted name) := usual.part fun c member => by simp [Members.text, member]
    obtain ⟨left, blankLeft, tab, scans⟩ := @scans_member bound depth gap after.chars
      (',' :: (inner.chars ++ (more.text ++ '\x7d' :: rest))) tokens name close far value key inside
      blank after.blank (closesPlain_cons (.inl rfl))
    have all := (scans.trans (scans_flowEntry blankLeft)).trans (row inner.blank)
    have joined : gap ++ ((Members.more name close far value after inner more).text ++
          '\x7d' :: rest) =
        gap ++ (quoted name ++ (close.chars ++ ':' :: (far.chars ++ (value.text ++ (after.chars ++
          ',' :: (inner.chars ++ (more.text ++ '\x7d' :: rest))))))) := by simp [Members.text]
    rw [joined]
    refine (all.of_iff ?_).imp fun s at' => ?_
    · simp [Members.text, tab_notMem_quoted, tab, and_assoc]
    · simpa [Members.flow, FlowEntries.tokens, more.tokens_flow] using at'

end

end ScanState

end Yaml

end ApiCatalog
