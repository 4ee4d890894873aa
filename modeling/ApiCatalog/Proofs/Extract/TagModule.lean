import ApiCatalog.Proofs.Extract.Grouping

/-!
Modules and their tags. The modules stand in the order of the tags, one for each tag that is no
placeholder and has operations, and a module has the interfaces of the operations of its tag, the
first one of each name.
-/

namespace ApiCatalog

section
variable (policy : TagPolicy) (operations : List RawOperation)

def TagPolicy.keeps (tag : Value) : Bool :=
  policy.isInformative tag && !(policy.operationsOf operations tag).isEmpty

variable (byId : Bool) (origin : String) (tag : Value)

end

section
variable {policy : TagPolicy} {operations : List RawOperation} {byId : Bool} {origin : String}
  {tag : Value}

end

end ApiCatalog
