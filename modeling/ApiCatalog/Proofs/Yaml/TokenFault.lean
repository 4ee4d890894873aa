import ApiCatalog.Proofs.Yaml.Failure
import ApiCatalog.Yaml.TokenStream

/-!
Faults of tokens. The tokens of a text end at a fault only where a number has no value: that of a
version is too long, or that of an escaped character is beyond the last one.
-/

namespace ApiCatalog.Yaml

/-- The faults of a number that has no value, or none within the range of its kind. -/
def IsNumberFault (fault : Fault) : Prop :=
  fault = .noValue ∨ fault = .overflow

/-! Directives and tags. -/

theorem failsOnly_scanVersionNumber (ends : Option Char → Bool) (here : Cursor) :
    FailsOnly IsNumberFault (scanVersionNumber ends here) := by
  unfold scanVersionNumber
  dsimp only
  split
  · exact failsOnly_malformed
  split
  · exact failsOnly_fault (.inl rfl)
  split
  · exact failsOnly_malformed
  · exact failsOnly_ok _

theorem failsOnly_scanEscapedBytes {cause : Fault → Prop} (fuel : Nat) (here : Cursor) :
    FailsOnly cause (scanEscapedBytes fuel here) := by
  induction fuel generalizing here with
  | zero => exact failsOnly_ok _
  | succ fuel inner =>
    unfold scanEscapedBytes
    split
    · split
      · exact failsOnly_malformed
      · exact (inner _).bind fun _ => failsOnly_pure _
    · exact failsOnly_malformed
    · exact failsOnly_ok _

theorem failsOnly_scanTagText {cause : Fault → Prop} (fuel : Nat) (here : Cursor) :
    FailsOnly cause (scanTagText fuel here) := by
  induction fuel generalizing here with
  | zero => exact failsOnly_ok _
  | succ fuel inner =>
    unfold scanTagText
    dsimp only
    split
    · refine (failsOnly_scanEscapedBytes fuel _).bind fun bytes => ?_
      split
      · exact failsOnly_malformed
      · exact (inner _).bind fun _ => failsOnly_pure _
    · exact failsOnly_pure _

theorem failsOnly_scanTagSuffix {cause : Fault → Prop} (fuel : Nat) (here : Cursor) :
    FailsOnly cause (scanTagSuffix fuel here) := by
  refine (failsOnly_scanTagText fuel here).bind fun suffix => ?_
  dsimp only
  split
  · exact failsOnly_malformed
  · exact failsOnly_pure _

theorem failsOnly_scanTagHandle {cause : Fault → Prop} (here : Cursor) :
    FailsOnly cause (scanTagHandle here) := by
  unfold scanTagHandle
  split
  · exact failsOnly_malformed
  split
  · exact failsOnly_ok _
  dsimp only
  split
  · exact failsOnly_ok _
  · exact failsOnly_malformed

theorem failsOnly_scanTag {cause : Fault → Prop} (fuel : Nat) (here : Cursor) :
    FailsOnly cause (scanTag fuel here) := by
  unfold scanTag
  extract_lets ended
  have each : ∀ result, FailsOnly cause (ended result) := fun _ =>
    .ite (failsOnly_pure _) failsOnly_malformed
  clear_value ended
  refine .ite ?_ (.ite ?_ ?_)
  · refine (failsOnly_scanTagSuffix fuel _).bind fun suffix => ?_
    exact .ite ((failsOnly_pure _).bind each) (failsOnly_malformed.bind each)
  · exact (failsOnly_pure _).bind each
  · refine .ite ((failsOnly_scanTagHandle _).bind fun _ => ?_) ((failsOnly_pure _).bind fun _ => ?_)
    all_goals exact (failsOnly_scanTagSuffix fuel _).bind fun _ => (failsOnly_pure _).bind each

theorem failsOnly_scanLineRest {cause : Fault → Prop} (here : Cursor) :
    FailsOnly cause (scanLineRest here) := by
  unfold scanLineRest
  dsimp only
  split
  · exact failsOnly_ok _
  · exact failsOnly_malformed

theorem failsOnly_scanDirective (fuel : Nat) (here : Cursor) :
    FailsOnly IsNumberFault (scanDirective fuel here) := by
  unfold scanDirective
  dsimp only
  split
  · exact failsOnly_malformed
  split
  · refine (failsOnly_scanVersionNumber _ _).bind fun major => ?_
    refine (failsOnly_scanVersionNumber _ _).bind fun minor => ?_
    exact (failsOnly_scanLineRest _).bind fun _ => failsOnly_pure _
  split
  · refine (failsOnly_scanTagHandle _).bind fun handle => ?_
    split
    · exact failsOnly_malformed
    · refine (failsOnly_scanTagSuffix fuel _).bind fun lead => ?_
      split
      · exact (failsOnly_scanLineRest _).bind fun _ => failsOnly_pure _
      · exact failsOnly_malformed
  · exact (failsOnly_scanLineRest _).bind fun _ => failsOnly_pure _

theorem failsOnly_scanName {cause : Fault → Prop} (here : Cursor) :
    FailsOnly cause (scanName here) := by
  unfold scanName
  exact failsOnly_malformed.ite (failsOnly_ok _)

/-! Scalars. -/

theorem failsOnly_numberedChar (point : Nat) : FailsOnly IsNumberFault (numberedChar point) := by
  unfold numberedChar
  split
  · exact failsOnly_fault (.inr rfl)
  split
  · exact failsOnly_fault (.inl rfl)
  split
  · exact failsOnly_ok _
  · exact failsOnly_ok _

theorem failsOnly_scanQuotedBreaks {cause : Fault → Prop} (fuel : Nat) (here : Cursor) :
    FailsOnly cause (scanQuotedBreaks fuel here) := by
  unfold scanQuotedBreaks
  refine .ite failsOnly_malformed ?_
  dsimp only
  split
  · exact failsOnly_malformed
  · exact failsOnly_ok _

theorem failsOnly_scanEscape (fuel : Nat) (here : Cursor) :
    FailsOnly IsNumberFault (scanEscape fuel here) := by
  unfold scanEscape
  split
  · exact failsOnly_malformed
  split
  · exact failsOnly_ok _
  · dsimp only
    split
    · exact failsOnly_malformed
    · exact .ite failsOnly_malformed
        ((failsOnly_numberedChar _).bind fun _ => failsOnly_pure _)
  · exact .ite (failsOnly_scanQuotedBreaks fuel _) failsOnly_malformed

theorem failsOnly_scanQuotedSpaces {cause : Fault → Prop} (fuel : Nat) (here : Cursor) :
    FailsOnly cause (scanQuotedSpaces fuel here) := by
  unfold scanQuotedSpaces
  dsimp only
  split
  · exact failsOnly_malformed
  · exact failsOnly_pure _
  · exact (failsOnly_scanQuotedBreaks fuel _).bind fun _ => failsOnly_pure _

theorem failsOnly_scanQuotedText (double : Bool) (fuel : Nat) (here : Cursor) :
    FailsOnly IsNumberFault (scanQuotedText double fuel here) := by
  induction fuel generalizing here with
  | zero => exact failsOnly_malformed
  | succ fuel inner =>
    have each (plain : List Char) (piece : List Char × Cursor × Bool) : FailsOnly IsNumberFault
        (if piece.2.2 = true then pure (plain, piece.2.1)
        else do
          let more ← scanQuotedText double fuel piece.2.1
          pure (plain ++ piece.1 ++ more.1, more.2)) :=
      .ite (failsOnly_pure _) ((inner _).bind fun _ => failsOnly_pure _)
    unfold scanQuotedText
    dsimp only
    split
    · exact .ite ((failsOnly_pure _).bind (each _))
        (.ite ((failsOnly_pure _).bind (each _)) ((failsOnly_pure _).bind (each _)))
    · exact .ite ((failsOnly_pure _).bind (each _)) ((failsOnly_pure _).bind (each _))
    · refine .ite ((failsOnly_scanEscape fuel _).bind fun _ => ?_) ?_
      all_goals exact (failsOnly_pure _).bind (each _)
    · exact (failsOnly_scanQuotedSpaces fuel _).bind fun _ => (failsOnly_pure _).bind (each _)

theorem failsOnly_scanIncrement? {cause : Fault → Prop} (here : Cursor) :
    FailsOnly cause (scanIncrement? here) := by
  unfold scanIncrement?
  split
  · exact .ite failsOnly_malformed (.ite (failsOnly_ok _) (failsOnly_ok _))
  · exact failsOnly_ok _

theorem failsOnly_scanBlockHead {cause : Fault → Prop} (here : Cursor) :
    FailsOnly cause (scanBlockHead here) := by
  unfold scanBlockHead
  refine (failsOnly_scanIncrement? _).bind fun _ => ?_
  exact .ite ((failsOnly_scanLineRest _).bind fun _ => failsOnly_pure _) failsOnly_malformed

theorem failsOnly_scanBlockText {cause : Fault → Prop} (folded : Bool) (outer : Int) (fuel : Nat)
    (here : Cursor) : FailsOnly cause (scanBlockText folded outer fuel here) :=
  (failsOnly_scanBlockHead _).bind fun _ => failsOnly_pure _

namespace ScanState

/-! Steps of the scan. Those that only look at the indentation and the possible keys have no fault
at all. -/

variable {cause : Fault → Prop}

theorem failsOnly_dropKey (s : ScanState) : FailsOnly cause s.dropKey := by
  unfold dropKey
  split
  · exact failsOnly_ok _
  · exact .ite failsOnly_malformed (failsOnly_ok _)

theorem failsOnly_noteKey (s : ScanState) : FailsOnly cause s.noteKey :=
  .ite ((failsOnly_dropKey s).bind fun _ => failsOnly_pure _) (failsOnly_ok _)

theorem failsOnly_freshKey (here : Cursor) (key : Option PossibleKey) :
    FailsOnly cause (freshKey here key) := by
  unfold freshKey
  split
  · exact failsOnly_ok _
  · exact .ite (failsOnly_ok _) (.ite failsOnly_malformed (failsOnly_ok _))

theorem failsOnly_dropStale (s : ScanState) : FailsOnly cause s.dropStale :=
  (FailsOnly.mapM fun key _ => failsOnly_freshKey s.here key).bind fun _ =>
    (failsOnly_freshKey _ _).bind fun _ => failsOnly_pure _

theorem failsOnly_fetchEnd (s : ScanState) : FailsOnly cause s.fetchEnd :=
  (failsOnly_dropKey _).bind fun _ => failsOnly_pure _

theorem failsOnly_fetchSeparator (token : Token) (s : ScanState) :
    FailsOnly cause (s.fetchSeparator token) :=
  (failsOnly_dropKey _).bind fun _ => failsOnly_pure _

theorem failsOnly_fetchFlowStart (token : Token) (s : ScanState) :
    FailsOnly cause (s.fetchFlowStart token) :=
  (failsOnly_noteKey s).bind fun _ => failsOnly_pure _

theorem failsOnly_fetchFlowEnd (token : Token) (s : ScanState) :
    FailsOnly cause (s.fetchFlowEnd token) := by
  refine (failsOnly_dropKey s).bind fun s => ?_
  split
  · exact failsOnly_malformed
  · exact failsOnly_pure _

theorem failsOnly_fetchFlowEntry (s : ScanState) : FailsOnly cause s.fetchFlowEntry :=
  (failsOnly_dropKey _).bind fun _ => failsOnly_pure _

theorem failsOnly_opening {s opened : ScanState} {next : ScanState → Except Failure ScanState}
    (goesOn : ∀ s, FailsOnly cause (next s)) : FailsOnly cause (
      if s.inFlow = true then pure s >>= next
      else if s.keyAllowed = true then pure opened >>= next
      else Except.error Failure.malformed >>= next) :=
  .ite ((failsOnly_pure _).bind goesOn)
    (.ite ((failsOnly_pure _).bind goesOn) (failsOnly_malformed.bind goesOn))

theorem failsOnly_fetchBlockEntry (s : ScanState) : FailsOnly cause s.fetchBlockEntry :=
  failsOnly_opening fun _ => (failsOnly_dropKey _).bind fun _ => failsOnly_pure _

theorem failsOnly_fetchKey (s : ScanState) : FailsOnly cause s.fetchKey :=
  failsOnly_opening fun _ => (failsOnly_dropKey _).bind fun _ => failsOnly_pure _

theorem failsOnly_fetchValue (s : ScanState) : FailsOnly cause s.fetchValue := by
  unfold fetchValue
  split
  · exact failsOnly_pure _
  · exact failsOnly_opening fun _ => failsOnly_pure _

theorem failsOnly_fetchName (token : List Char → Token) (s : ScanState) :
    FailsOnly cause (s.fetchName token) :=
  (failsOnly_noteKey s).bind fun _ => (failsOnly_scanName _).bind fun _ => failsOnly_pure _

theorem failsOnly_fetchTag (fuel : Nat) (s : ScanState) : FailsOnly cause (s.fetchTag fuel) :=
  (failsOnly_noteKey s).bind fun _ => (failsOnly_scanTag fuel _).bind fun _ => failsOnly_pure _

theorem failsOnly_fetchBlockScalar (folded : Bool) (fuel : Nat) (s : ScanState) :
    FailsOnly cause (s.fetchBlockScalar folded fuel) :=
  (failsOnly_dropKey _).bind fun _ => (failsOnly_scanBlockText folded _ fuel _).bind fun _ =>
    failsOnly_pure _

theorem failsOnly_fetchPlain (fuel : Nat) (s : ScanState) : FailsOnly cause (s.fetchPlain fuel) :=
  (failsOnly_noteKey s).bind fun _ => failsOnly_pure _

theorem failsOnly_fetchDirective (fuel : Nat) (s : ScanState) :
    FailsOnly IsNumberFault (s.fetchDirective fuel) :=
  (failsOnly_dropKey _).bind fun _ => (failsOnly_scanDirective fuel _).bind fun _ =>
    failsOnly_pure _

theorem failsOnly_fetchQuoted (double : Bool) (fuel : Nat) (s : ScanState) :
    FailsOnly IsNumberFault (s.fetchQuoted double fuel) :=
  (failsOnly_noteKey s).bind fun _ => (failsOnly_scanQuotedText double fuel _).bind fun _ =>
    failsOnly_pure _

theorem failsOnly_fetch (fuel : Nat) (s : ScanState) : FailsOnly IsNumberFault (s.fetch fuel) := by
  refine (failsOnly_dropStale _).bind fun s => ?_
  dsimp only
  split
  · exact failsOnly_fetchEnd _
  · exact .ite (failsOnly_fetchDirective fuel _) <| .ite (failsOnly_fetchSeparator _ _) <|
      .ite (failsOnly_fetchSeparator _ _) <| .ite (failsOnly_fetchFlowStart _ _) <|
      .ite (failsOnly_fetchFlowStart _ _) <| .ite (failsOnly_fetchFlowEnd _ _) <|
      .ite (failsOnly_fetchFlowEnd _ _) <| .ite (failsOnly_fetchFlowEntry _) <|
      .ite (failsOnly_fetchBlockEntry _) <| .ite (failsOnly_fetchKey _) <|
      .ite (failsOnly_fetchValue _) <| .ite (failsOnly_fetchName _ _) <|
      .ite (failsOnly_fetchName _ _) <| .ite (failsOnly_fetchTag fuel _) <|
      .ite (failsOnly_fetchBlockScalar false fuel _) <|
      .ite (failsOnly_fetchBlockScalar true fuel _) <| .ite (failsOnly_fetchQuoted false fuel _) <|
      .ite (failsOnly_fetchQuoted true fuel _) <|
      .ite (failsOnly_fetchPlain fuel _) failsOnly_malformed

theorem failsOnly_step (bound : Nat) (s : ScanState) : FailsOnly IsNumberFault (s.step bound) :=
  (failsOnly_fetch bound s).bind fun _ => .ite (failsOnly_pure _) (failsOnly_dropStale _)

theorem isNumberFault_of_run {bound fuel : Nat} {s : ScanState} {fault : Fault}
    (stopped : (s.run bound fuel).2 = some (.fault fault)) : IsNumberFault fault := by
  induction fuel generalizing s with
  | zero => simp [run] at stopped
  | succ fuel inner =>
    unfold run at stopped
    split at stopped
    · cases stopped
    · split at stopped
      · exact inner stopped
      · rename_i failure failed
        cases stopped
        exact failsOnly_step bound s fault failed

end ScanState

theorem isNumberFault_of_tokensOf {text : List Char} {fault : Fault}
    (stopped : (tokensOf text).2 = some (.fault fault)) : IsNumberFault fault :=
  ScanState.isNumberFault_of_run stopped

end ApiCatalog.Yaml
