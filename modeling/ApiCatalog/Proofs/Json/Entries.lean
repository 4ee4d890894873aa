import ApiCatalog.Json.Basic

/-! Entries whose keys and values are renamed alike. -/

namespace ApiCatalog

section

variable {κ κ' α α' : Type} {same : κ → κ → Bool} {same' : κ' → κ' → Bool} {f : κ → κ'}
  {g : α → α'}

theorem putEntry_map {key : κ} (value : α) {entries : List (κ × α)}
    (agree : ∀ entry ∈ entries, same' (f entry.1) (f key) = same entry.1 key) :
    putEntry same' (f key) (g value) (entries.map (Prod.map f g)) =
      (putEntry same key value entries).map (Prod.map f g) := by
  induction entries with
  | nil => rfl
  | cons entry rest inner =>
    obtain ⟨head, tail⟩ := List.forall_mem_cons.mp agree
    simp only [List.map_cons, Prod.map, putEntry, head]
    split
    · rfl
    · exact congrArg _ (inner tail)

theorem mem_keys_putEntry {key : κ} {value : α} {entries : List (κ × α)} {entry : κ × α}
    (member : entry ∈ putEntry same key value entries) :
    entry.1 = key ∨ ∃ before ∈ entries, before.1 = entry.1 := by
  induction entries with
  | nil =>
    rw [putEntry, List.mem_singleton] at member
    exact .inl (member ▸ rfl)
  | cons head rest inner =>
    unfold putEntry at member
    split at member
    · rcases List.mem_cons.mp member with rfl | member
      · exact .inr ⟨head, List.mem_cons_self, rfl⟩
      · exact .inr ⟨entry, List.mem_cons_of_mem _ member, rfl⟩
    · rcases List.mem_cons.mp member with rfl | member
      · exact .inr ⟨head, List.mem_cons_self, rfl⟩
      · rcases inner member with new | ⟨before, old, known⟩
        · exact .inl new
        · exact .inr ⟨before, List.mem_cons_of_mem _ old, known⟩

theorem collectEntries_map {entries : List (κ × α)}
    (agree : ∀ a ∈ entries, ∀ b ∈ entries, same' (f a.1) (f b.1) = same a.1 b.1) :
    collectEntries same' (entries.map (Prod.map f g)) =
      (collectEntries same entries).map (Prod.map f g) := by
  -- Every key that is kept so far is the key of an entry.
  suffices put : ∀ rest kept : List (κ × α), (∀ entry ∈ rest, entry ∈ entries) →
      (∀ entry ∈ kept, ∃ before ∈ entries, before.1 = entry.1) →
      (rest.map (Prod.map f g)).foldl (fun kept entry => putEntry same' entry.1 entry.2 kept)
          (kept.map (Prod.map f g)) =
        (rest.foldl (fun kept entry => putEntry same entry.1 entry.2 kept) kept).map
          (Prod.map f g) from put entries [] (fun _ member => member) nofun
  intro rest
  induction rest with
  | nil => exact fun _ _ _ => rfl
  | cons entry rest inner =>
    intro kept part known
    obtain ⟨member, part⟩ := List.forall_mem_cons.mp part
    have alike : ∀ other ∈ kept, same' (f other.1) (f entry.1) = same other.1 entry.1 := by
      intro other old
      obtain ⟨before, source, key⟩ := known other old
      rw [← key]
      exact agree before source entry member
    rw [List.map_cons, List.foldl_cons, List.foldl_cons, ← inner _ part]
    · rw [← putEntry_map entry.2 alike]
      rfl
    · intro other old
      rcases mem_keys_putEntry old with new | ⟨before, earlier, key⟩
      · exact ⟨entry, member, new.symm⟩
      · obtain ⟨source, origin, first⟩ := known before earlier
        exact ⟨source, origin, first.trans key⟩

end

end ApiCatalog
