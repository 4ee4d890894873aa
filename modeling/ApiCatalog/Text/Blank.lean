/-! White space of every script, and text with its margins removed. -/

namespace ApiCatalog.Text

def isBlank (c : Char) : Bool :=
  let point := c.toNat
  (decide (9 ≤ point) && decide (point ≤ 13)) || (decide (28 ≤ point) && decide (point ≤ 32)) ||
    point == 0x85 || point == 0xa0 || point == 0x1680 ||
    (decide (0x2000 ≤ point) && decide (point ≤ 0x200a)) || point == 0x2028 || point == 0x2029 ||
    point == 0x202f || point == 0x205f || point == 0x3000

def dropWhileRight (test : Char → Bool) (cs : List Char) : List Char :=
  (cs.reverse.dropWhile test).reverse

def stripBy (test : Char → Bool) (cs : List Char) : List Char :=
  dropWhileRight test (cs.dropWhile test)

def strip (cs : List Char) : List Char :=
  stripBy isBlank cs

def allBlank (cs : List Char) : Bool :=
  cs.all isBlank

theorem dropWhile_eq_nil_iff_forall (test : Char → Bool) (cs : List Char) :
    cs.dropWhile test = [] ↔ ∀ c ∈ cs, test c = true := by
  induction cs with
  | nil => simp
  | cons c cs ih => by_cases holds : test c = true <;> simp [holds, ih]

theorem dropWhileRight_eq_nil_iff (test : Char → Bool) (cs : List Char) :
    dropWhileRight test cs = [] ↔ ∀ c ∈ cs, test c = true := by
  simp only [dropWhileRight, List.reverse_eq_nil_iff, dropWhile_eq_nil_iff_forall,
    List.mem_reverse]

theorem strip_eq_nil_iff (cs : List Char) : strip cs = [] ↔ allBlank cs = true := by
  simp only [strip, stripBy, dropWhileRight_eq_nil_iff, allBlank, List.all_eq_true]
  constructor
  · intro inner c member
    rw [← List.takeWhile_append_dropWhile (p := isBlank) (l := cs)] at member
    rcases List.mem_append.mp member with front | back
    · exact List.all_eq_true.mp List.all_takeWhile c front
    · exact inner c back
  · intro every c member
    exact every c ((List.dropWhile_suffix isBlank).subset member)

theorem length_strip_le (cs : List Char) : (strip cs).length ≤ cs.length := by
  have right : ∀ xs : List Char, (dropWhileRight isBlank xs).length ≤ xs.length := by
    intro xs
    simpa [dropWhileRight] using
      (List.dropWhile_suffix (l := xs.reverse) isBlank).length_le
  exact Nat.le_trans (right _) (List.dropWhile_suffix isBlank).length_le

end ApiCatalog.Text
