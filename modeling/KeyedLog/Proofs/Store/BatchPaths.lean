import KeyedLog.Proofs.Store.Documents
import KeyedLog.Proofs.Store.ObjectPaths

/-!
The paths of batches. What is checked of a key before a sink is made for it is what the store checks of the id of every batch
of the sink, although the one sees neither the name of the sink nor the number of the batch and the other not the key.
-/

namespace KeyedLog

open KeyedLog.Path

namespace StorageKey

variable {key base sinkInstance : String}

def isHexDigit (c : Char) : Bool :=
  c.isDigit || (decide ('a' ≤ c) && decide (c ≤ 'f')) || (decide ('A' ≤ c) && decide (c ≤ 'F'))

/-- Decimal digits and hexadecimal digits, with a line between them. -/
def IsInstanceName (name : String) : Prop :=
  ∃ decimal hexadecimal, name.toList = decimal ++ '_' :: hexadecimal ∧ (∀ c ∈ decimal, c.isDigit = true) ∧
    ∀ c ∈ hexadecimal, isHexDigit c = true

theorem IsInstanceName.plain (named : IsInstanceName sinkInstance) : IsPlain sinkInstance := by
  obtain ⟨decimal, hexadecimal, shape, digits, letters⟩ := named
  have outside : ∀ c, c ≠ '_' → c.isDigit = false → isHexDigit c = false → c ∉ sinkInstance.toList := by
    intro c line decimal hexadecimal member
    rw [shape, List.mem_append, List.mem_cons] at member
    rcases member with front | here | back
    · rw [digits c front] at decimal
      exact absurd decimal (by decide)
    · exact line here
    · rw [letters c back] at hexadecimal
      exact absurd hexadecimal (by decide)
  exact ⟨outside _ (by decide) (by decide) (by decide), outside _ (by decide) (by decide) (by decide)⟩

theorem plain_of_base (accepted : StorageKey.base key = .ok base) : ¬ DirectoryStore.LeadsAway base := by
  rw [← DirectoryStore.isPlainId_iff]
  unfold StorageKey.base at accepted
  dsimp only at accepted
  split at accepted
  · simp at accepted
  next nonempty =>
    split at accepted
    · simp at accepted
    next down =>
      obtain rfl := Except.ok.inj accepted
      simp only [Bool.or_eq_true, bne_iff_ne, not_or, ne_eq, not_not] at down
      simp only [DirectoryStore.isPlainId, String.toList_ofList, Bool.and_eq_true, Bool.not_eq_true', beq_iff_eq]
      refine ⟨⟨?_, down.1⟩, by simpa using down.2⟩
      rw [String.isEmpty_eq_false_iff]
      intro empty
      exact nonempty (by simpa using empty)

theorem leadsAway_batchId (plain : IsPlain sinkInstance) (batch : Nat) :
    DirectoryStore.LeadsAway (batchId base sinkInstance batch) ↔ DirectoryStore.LeadsAway base := by
  have named := isName_batchName plain batch
  have real : batchId base sinkInstance batch ≠ "" := by
    intro empty
    have chars := toList_batchId base sinkInstance batch
    rw [empty] at chars
    simp at chars
  unfold DirectoryStore.LeadsAway
  rw [toList_batchId, head?_split_append, Text.split_append_separator, Text.split_of_notMem named.whole, List.mem_append,
    List.mem_singleton]
  by_cases nothing : base = ""
  · subst nothing
    exact iff_of_true (.inr (.inl rfl)) (.inl rfl)
  · rw [List.head?_append_of_ne_nil _ (mt String.toList_eq_nil_iff.mp nothing)]
    simp [real, nothing, Ne.symm named.down]

theorem names_batchId (plain : IsPlain sinkInstance) (batch : Nat) :
    names (batchId base sinkInstance batch).toList = names base.toList ++ [batchName sinkInstance batch] := by
  have named := isName_batchName plain batch
  have alone : names (batchName sinkInstance batch) = [batchName sinkInstance batch] := by
    simp [names, Text.split_of_notMem named.whole, isIdle, named.nonempty, named.ordinary]
  rw [toList_batchId, names_append_slash, alone]

end StorageKey

namespace DirectoryStore

open StorageKey

theorem components_of_plain {id : String} (plain : ¬ LeadsAway id) :
    components id.toList = (names id.toList).map .name := by
  have front := (isPlainId_iff id).mpr plain
  simp only [isPlainId, Bool.and_eq_true, beq_iff_eq] at front
  rw [components_eq, front.1.2]
  exact List.map_congr_left (ofPiece_of_plain plain)

theorem objectPath_batchId {key base sinkInstance : String} (accepted : StorageKey.base key = .ok base)
    (plain : IsPlain sinkInstance) (batch : Nat) (store : DirectoryStore) (type : DocumentType) :
    ∃ path, store.objectPath (batchId base sinkInstance batch) type = .ok path ∧
      components path.toList = components store.root.toList ++
        .name type.area.toList :: components base.toList ++ [.name (batchName sinkInstance batch)] ∧
      ∀ files : FileTree, files.place path = files.place store.root ++
        type.area :: (names base.toList).map String.ofList ++ [String.ofList (batchName sinkInstance batch)] := by
  have down := plain_of_base accepted
  obtain ⟨away, -⟩ | ⟨-, kept⟩ := objectPath_eq store (batchId base sinkInstance batch) type
  · exact absurd ((leadsAway_batchId plain batch).mp away) down
  · refine ⟨_, kept, ?_, fun files => ?_⟩
    · rw [components_objectPath kept, names_batchId plain, components_of_plain down, List.map_append]
      simp
    · rw [places_objectPath kept, names_batchId plain, List.map_append]
      simp

theorem put_ne_invalidId {store : DirectoryStore} {id path : String} {type : DocumentType}
    (kept : store.objectPath id type = .ok path) (bytes : Bytes) (files : FileTree) (other : String) :
    (store.put id type bytes files).1 ≠ .error (.invalidId other) := by
  unfold put
  rw [kept]
  dsimp only
  split <;> simp

theorem proceed_ne_invalidId {store : DirectoryStore} {id path : String} {type : DocumentType}
    (kept : store.objectPath id type = .ok path) (bytes : Bytes) (files : FileTree) (other : String) (stage : PutStage) :
    (store.proceed stage id type bytes files).1 ≠ .answered (.error (.invalidId other)) := by
  unfold proceed
  rw [kept]
  cases stage with
  | due => simp
  | preparing =>
      dsimp only
      split <;> simp
  | storing =>
      dsimp only
      split <;> simp

end DirectoryStore

end KeyedLog
