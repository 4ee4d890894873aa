import ApiCatalog.Extract.Operation
import ApiCatalog.Proofs.Naming.RemainingRoute

/-!
Shortened route names. Without the lead that the paths of a list share, a name loses the words of
the lead and nothing else, if there is no point in the lead. No method starts another one, so names
that differ still differ when they are shortened, and names of different methods always do.
-/

namespace ApiCatalog.Naming

theorem routeWords_eq (path lead : List Char) :
    routeWords path lead = ((cutRow '.' (segments (dropLead path lead))).filter
      fun piece => !piece.isEmpty).flatMap segmentWord := by
  rw [routeWords, segments_before (by decide)]

theorem dropLead_nil (path : List Char) : dropLead path [] = path :=
  rfl

/-- A point in the lead would cut off all words behind it. -/
theorem routeWords_eq_lead_append {path lead : List Char} (pointless : '.' ∉ lead)
    (parts : segments path = segments lead ++ segments (dropLead path lead)) :
    routeWords path [] = routeWords lead [] ++ routeWords path lead := by
  have unmarked : ∀ piece ∈ segments lead, '.' ∉ piece := fun piece member inside =>
    pointless ((infix_of_mem_segments member).subset inside)
  rw [routeWords_eq path [], routeWords_eq lead [], routeWords_eq path lead, dropLead_nil,
    dropLead_nil, parts, cutRow_append unmarked, cutRow_eq_self unmarked, List.filter_append,
    List.flatMap_append]

theorem eq_of_method_starts : ∀ first ∈ httpMethods, ∀ second ∈ httpMethods,
    first.toList <+: second.toList → first = second := by
  decide

theorem eq_of_method_append {first second : String} (known : first ∈ httpMethods)
    (knownToo : second ∈ httpMethods) {words others : List Char}
    (same : first.toList ++ words = second.toList ++ others) : first = second := by
  have starts : first.toList <+: second.toList ++ others := same ▸ List.prefix_append _ words
  rcases List.prefix_or_prefix_of_prefix starts (List.prefix_append _ others) with inside | inside
  · exact eq_of_method_starts first known second knownToo inside
  · exact (eq_of_method_starts second knownToo first known inside).symm

theorem method_append_eq_iff {first second : String} (known : first ∈ httpMethods)
    (knownToo : second ∈ httpMethods) {words others : List Char} :
    first.toList ++ words = second.toList ++ others ↔ first = second ∧ words = others := by
  constructor
  · intro same
    obtain rfl := eq_of_method_append known knownToo same
    exact ⟨rfl, List.append_cancel_left same⟩
  · rintro ⟨rfl, rfl⟩
    rfl

/-- A shortened name has lost the words of the lead, whatever the path and the method, and kept the
words of its own path behind the lead. So no two names become the same. -/
theorem routeName_shortened {paths : List (List Char)} (pointless : '.' ∉ routeLead paths) :
    (∀ path ∈ paths, ∀ method,
      routeName path method [] =
          method ++ routeWords (routeLead paths) [] ++ routeWords path (routeLead paths) ∧
        routeName path method (routeLead paths) = method ++ routeWords path (routeLead paths)) ∧
      ∀ path ∈ paths, ∀ other ∈ paths, ∀ first ∈ httpMethods, ∀ second ∈ httpMethods,
        (routeName path first.toList (routeLead paths) =
            routeName other second.toList (routeLead paths) ↔
          routeName path first.toList [] = routeName other second.toList []) ∧
        (first ≠ second →
          routeName path first.toList (routeLead paths) ≠
              routeName other second.toList (routeLead paths) ∧
            routeName path first.toList [] ≠ routeName other second.toList []) := by
  have split : ∀ path ∈ paths,
      routeWords path [] = routeWords (routeLead paths) [] ++ routeWords path (routeLead paths) :=
    fun path member => routeWords_eq_lead_append pointless (segments_eq_lead_append member)
  refine ⟨fun path member method => ⟨?_, rfl⟩, ?_⟩
  · rw [routeName, split path member, List.append_assoc]
  · intro path member other memberToo first known second knownToo
    constructor
    · rw [routeName, routeName, routeName, routeName, split path member, split other memberToo,
        method_append_eq_iff known knownToo, method_append_eq_iff known knownToo,
        List.append_cancel_left_eq]
    · intro apart
      exact ⟨fun same => apart (eq_of_method_append known knownToo same),
        fun same => apart (eq_of_method_append known knownToo same)⟩

def doubleSlashPaths : List (List Char) :=
  ["/api//users/\x7bid\x7d".toList, "/api//users.json".toList]

theorem routeName_shortened_doubleSlashPaths :
    '.' ∉ routeLead doubleSlashPaths ∧
      routeWords (routeLead doubleSlashPaths) [] = "Api".toList ∧
      routeName "/api//users/\x7bid\x7d".toList "get".toList [] =
        "get".toList ++ routeWords (routeLead doubleSlashPaths) [] ++ "UsersById".toList ∧
      routeName "/api//users/\x7bid\x7d".toList "get".toList (routeLead doubleSlashPaths) =
        "get".toList ++ "UsersById".toList ∧
      routeName "/api//users/\x7bid\x7d".toList "put".toList (routeLead doubleSlashPaths) ≠
        routeName "/api//users.json".toList "post".toList (routeLead doubleSlashPaths) := by
  have pointless : '.' ∉ routeLead doubleSlashPaths := by decide
  have rest : routeWords "/api//users/\x7bid\x7d".toList (routeLead doubleSlashPaths) =
      "UsersById".toList := by decide
  obtain ⟨each, pairs⟩ := routeName_shortened pointless
  have whole := each _ List.mem_cons_self "get".toList
  rw [rest] at whole
  refine ⟨pointless, by decide, whole.1, whole.2, ?_⟩
  exact ((pairs _ List.mem_cons_self _ (List.mem_cons_of_mem _ List.mem_cons_self)
    "put" (by decide) "post" (by decide)).2 (by decide)).1

end ApiCatalog.Naming
