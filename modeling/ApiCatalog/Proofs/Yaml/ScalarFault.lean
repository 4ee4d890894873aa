import ApiCatalog.Proofs.Yaml.NodeFault
import ApiCatalog.Yaml.Document

/-!
Faults of scalars. Each kind of scalar has few faults, and a document is at fault beyond its tokens
only where a tag of one of its nodes asks for a value that a text does not give.
-/

namespace ApiCatalog.Yaml

def Kind.Admits : Kind → Fault → Prop
  | .bool, fault => fault = .unknownWord
  | .int, fault => fault = .noCharacter ∨ fault = .noValue
  | .float, fault => fault = .noCharacter ∨ fault = .noValue ∨ fault = .overflow
  | .timestamp, fault => fault = .noOperation ∨ fault = .noValue
  | _, _ => False

section

variable {cause : Fault → Prop}

theorem failsOnly_wholeNumber (none : cause .noValue) (base : Nat) (text : List Char) :
    FailsOnly cause (wholeNumber base text) := by
  unfold wholeNumber
  dsimp only
  split
  · exact failsOnly_fault none
  · exact .ite (failsOnly_fault none) (failsOnly_ok _)

theorem failsOnly_signOf (short : cause .noCharacter) (text : List Char) :
    FailsOnly cause (signOf text) := by
  unfold signOf
  split
  · exact failsOnly_fault short
  · exact failsOnly_ok _

theorem failsOnly_intOf (text : List Char) : FailsOnly (Kind.Admits .int) (intOf text) := by
  have whole := @failsOnly_wholeNumber (Kind.Admits .int) (.inr rfl)
  refine (failsOnly_signOf (.inl rfl) _).bind fun (negative, digits) => ?_
  dsimp -zeta only
  extract_lets goesOn
  have each (size : Int) : FailsOnly (Kind.Admits .int) (goesOn size) := failsOnly_pure _
  split
  · exact (failsOnly_fault (.inl rfl)).bind each
  · exact (failsOnly_pure _).bind each
  · exact (whole 2 _).bind each
  · exact (whole 16 _).bind each
  · exact (whole 8 _).bind each
  · refine .ite ?_ ((whole 10 _).bind each)
    exact ((FailsOnly.mapM fun part _ => whole 10 part).map sexagesimal).bind each

theorem failsOnly_weightedSum (beyond : cause .overflow) (weight? : Nat → Option Number.Double)
    (power : Nat) (places : List Number.Double) (sum : Number.Double) :
    FailsOnly cause (weightedSum weight? power places sum) := by
  induction places generalizing power sum with
  | nil => exact failsOnly_ok sum
  | cons place places inner =>
    unfold weightedSum
    split
    · exact failsOnly_fault beyond
    · exact inner _ _

theorem failsOnly_floatOf (text : List Char) : FailsOnly (Kind.Admits .float) (floatOf text) := by
  refine (failsOnly_signOf (.inl rfl) _).bind fun (negative, digits) => ?_
  dsimp -zeta only
  extract_lets read goesOn
  have each (size : Number.Double) : FailsOnly (Kind.Admits .float) (goesOn size) :=
    failsOnly_pure _
  have reads (digits : List Char) : FailsOnly (Kind.Admits .float) (read digits) := by
    unfold read
    split
    · exact failsOnly_ok _
    · exact failsOnly_fault (.inr (.inl rfl))
  refine .ite ((failsOnly_pure _).bind each) (.ite ((failsOnly_pure _).bind each) (.ite ?_ ?_))
  · refine (FailsOnly.mapM fun part _ => reads part).bind fun places => ?_
    exact (failsOnly_weightedSum (.inr (.inr rfl)) _ 0 _ _).bind each
  · exact (reads _).bind each

theorem failsOnly_boolOf (text : List Char) : FailsOnly (Kind.Admits .bool) (boolOf text) := by
  unfold boolOf
  split
  · exact failsOnly_ok _
  · exact failsOnly_fault rfl

theorem failsOnly_timestampOf (text : List Char) :
    FailsOnly (Kind.Admits .timestamp) (timestampOf text) := by
  unfold timestampOf
  split
  · exact failsOnly_fault (.inl rfl)
  split
  · exact .ite (failsOnly_ok _) (failsOnly_fault (.inr rfl))
  · exact .ite (failsOnly_ok _) (failsOnly_fault (.inr rfl))

theorem failsOnly_bytesOf (text : List Char) : FailsOnly cause (bytesOf text) := by
  unfold bytesOf
  refine .ite failsOnly_malformed ?_
  split
  · exact failsOnly_ok _
  · exact failsOnly_malformed

theorem failsOnly_scalarValue (kind : Kind) (text : List Char) :
    FailsOnly kind.Admits (scalarValue kind text) := by
  cases kind with
  | bool => exact (failsOnly_boolOf text).map _
  | int => exact (failsOnly_intOf text).map _
  | float => exact (failsOnly_floatOf text).map _
  | timestamp => exact failsOnly_timestampOf text
  | binary => exact failsOnly_bytesOf text
  | null | text => exact failsOnly_ok _
  | _ => exact failsOnly_malformed

end

end ApiCatalog.Yaml
