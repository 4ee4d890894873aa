/-! What can be wrong with a record, and where in it. -/

namespace ApiCatalog

inductive Flaw
  | notText
  | undecodableText
  | notBool
  | unreadableBool
  | notList
  | notRecord
  | missing
  | notChoice
  | notInt
  | notFloat
  | frozen
deriving DecidableEq, Repr

inductive Step
  | field (name : String)
  | index (place : Nat)
deriving DecidableEq, Repr

structure Detail where
  place : List Step
  flaw : Flaw
deriving DecidableEq, Repr

inductive RecordKind
  | dataType
  | property
  | interface
  | apiModule
  | baseClass
  | catalog
  | tagPolicy
  | config
deriving DecidableEq, Repr

inductive Checked (α : Type)
  | valid (value : α)
  | flawed (details : List Detail)

namespace Checked

def apply {α β : Type} (f : Checked (α → β)) (x : Checked α) : Checked β :=
  match f, x with
  | .valid f, .valid x => .valid (f x)
  | .valid _, .flawed details => .flawed details
  | .flawed details, .valid _ => .flawed details
  | .flawed first, .flawed second => .flawed (first ++ second)

def map {α β : Type} (f : α → β) (x : Checked α) : Checked β :=
  match x with
  | .valid value => .valid (f value)
  | .flawed details => .flawed details

instance : Applicative Checked where
  pure := .valid
  map := map
  seq f x := apply f (x ())

def flaw {α : Type} (flaw : Flaw) : Checked α :=
  .flawed [⟨[], flaw⟩]

def under {α : Type} (step : Step) : Checked α → Checked α
  | .valid value => .valid value
  | .flawed details => .flawed (details.map fun detail => ⟨step :: detail.place, detail.flaw⟩)

def eachFrom {α β : Type} (check : α → Checked β) : Nat → List α → Checked (List β)
  | _, [] => .valid []
  | place, x :: xs =>
    apply (map List.cons ((check x).under (.index place))) (eachFrom check (place + 1) xs)

end Checked
end ApiCatalog
