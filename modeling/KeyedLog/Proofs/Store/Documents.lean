import KeyedLog.Proofs.Files.Numbers
import KeyedLog.Proofs.Store.BatchOrder
import KeyedLog.Store

/-!
What a store holds under an id. A put that succeeds leaves its bytes there, and no put changes what is held under an id
that ends in another name.
-/

namespace KeyedLog

def FileNode.content? : FileNode → Option Bytes
  | directory => none
  | file _ content => some content

namespace FileTree

def content? (tree : FileTree) (location : Location) : Option Bytes :=
  (tree.node? location).bind FileNode.content?

variable {tree before after : FileTree} {path name : String} {parent : Location}

theorem place_of_ends {front : List Char} {last : List Char} (named : Path.IsName last)
    (ends : path.toList = front ++ '/' :: last) : ∃ parent, tree.place path = parent ++ [String.ofList last] := by
  have steps : Path.steps path.toList = Path.steps front ++ [last] := by
    rw [ends, Path.steps, Text.split_append_separator, List.filter_append]
    exact congrArg _ (Path.steps_of_notMem named.nonempty named.whole)
  have ordinary : String.ofList last ≠ "." := fun same => named.ordinary (String.ofList_inj.mp (same.trans rfl))
  have down : String.ofList last ≠ ".." := fun same => named.down (String.ofList_inj.mp (same.trans rfl))
  refine ⟨((Path.steps front).map String.ofList).foldl descend (tree.origin path.toList), ?_⟩
  rw [place, steps, List.map_append, List.foldl_append]
  simp [descend, ordinary, down]

theorem Grows.content? (grows : before.Grows after) (location : Location) :
    after.content? location = before.content? location := by
  unfold FileTree.content?
  cases stands : before.node? location with
  | none =>
      rcases grows.new location stands with still | made
      · rw [still]
      · rw [made]
        rfl
  | some node => rw [grows.kept location node stands]

theorem IsNumbered.content?_modifyContent (numbered : tree.IsNumbered) {location : Location} {id : FileId}
    {content : Bytes} (stands : tree.node? location = some (.file id content)) (change : Bytes → Bytes) :
    (tree.modifyContent id change).node? location = some (.file id (change content)) ∧
      ∀ place, place ≠ location → (tree.modifyContent id change).content? place = tree.content? place := by
  refine ⟨by simp [node?_modifyContent, stands, FileNode.rewrite], ?_⟩
  intro place elsewhere
  unfold FileTree.content?
  rw [node?_modifyContent]
  cases there : tree.node? place with
  | none => rfl
  | some node =>
      cases node with
      | directory => rfl
      | file other kept =>
          have different : other ≠ id := by
            rintro rfl
            exact elsewhere (numbered.place_unique (mem_of_node? there) (mem_of_node? stands))
          simp [FileNode.rewrite, different]

end FileTree

namespace Files

open FileTree

variable {tree : FileTree} {path : String}

theorem openForWriting_content (numbered : tree.IsNumbered) {opened : FileHandle × Nat} {after : FileTree}
    (done : openForWriting path tree = .ok opened after) :
    after.IsNumbered ∧ (∃ content, after.node? (tree.place path) = some (.file opened.1.id content)) ∧
      ∀ place, place ≠ tree.place path → after.content? place = tree.content? place := by
  have keeps := Edits.numbers (openForWriting_edits path tree trivial : Edits Anywhere Anywhere tree _)
  rw [stateAfter_of_ok done] at keeps
  refine ⟨keeps.numbered numbered, ?_⟩
  obtain ⟨parent, name, names, ⟨content, stands, -, rfl⟩ | ⟨free, rfl, rfl⟩⟩ := openForWriting_ok done
  · rw [names.place]
    exact ⟨⟨content, stands⟩, fun _ _ => rfl⟩
  · have nodes := node?_attach tree free (.file tree.nextId [])
    rw [names.place]
    refine ⟨⟨[], ?_⟩, ?_⟩
    · exact (congrFun nodes _).trans (Function.update_self ..)
    · intro place elsewhere
      have same := (congrFun nodes place).trans (Function.update_of_ne elsewhere ..)
      unfold FileTree.content?
      exact congrArg (·.bind FileNode.content?) same

theorem writeAll_result (numbered : tree.IsNumbered) (path : String) (bytes : Bytes) :
    (∃ fault, writeAll path bytes tree = .error fault tree) ∨
      ∃ after, writeAll path bytes tree = .ok () after ∧ after.content? (tree.place path) = some bytes ∧
        ∀ place, place ≠ tree.place path → after.content? place = tree.content? place := by
  unfold writeAll
  cases done : openForWriting path tree with
  | error fault after =>
      rw [openForWriting_error done] at done
      have failed : create path tree = .error fault tree := bind_of_error done
      exact .inl ⟨fault, bind_of_error failed⟩
  | ok opened after =>
      obtain ⟨numberedAfter, ⟨content, stands⟩, others⟩ := openForWriting_content numbered done
      obtain ⟨cleared, same⟩ := numberedAfter.content?_modifyContent stands fun _ => []
      have numberedCleared := (keepsNumbers_modifyContent after opened.1.id fun _ => []).numbered numberedAfter
      obtain ⟨written, kept⟩ := numberedCleared.content?_modifyContent cleared (· ++ bytes)
      refine .inr ⟨(after.modifyContent opened.1.id fun _ => []).modifyContent opened.1.id (· ++ bytes), ?_, ?_, ?_⟩
      · have made : create path tree = .ok opened.1 (after.modifyContent opened.1.id fun _ => []) :=
          (bind_of_ok done).trans rfl
        exact (bind_of_ok made).trans rfl
      · exact congrArg (·.bind FileNode.content?) written
      · intro place elsewhere
        exact (kept place elsewhere).trans ((same place elsewhere).trans (others place elsewhere))

theorem writeAll_numbers (path : String) (bytes : Bytes) (tree : FileTree) :
    tree.KeepsNumbers (stateAfter (writeAll path bytes) tree) :=
  Edits.numbers (edits_bind (create_edits path tree trivial) fun handle after _ => append_edits handle bytes after :
    Edits Anywhere Anywhere tree _)

end Files

namespace DirectoryStore

open FileTree

variable {files : FileTree} {path : String} {bytes : Bytes}

theorem makeParent_grows (path : String) (files : FileTree) : files.Grows (stateAfter (makeParent path) files) := by
  unfold makeParent
  cases Path.parent? path with
  | none => exact Grows.refl files
  | some parent => exact Files.makeDirectories_grows parent files

theorem makeParent_numbers (path : String) (files : FileTree) :
    files.KeepsNumbers (stateAfter (makeParent path) files) := by
  unfold makeParent
  cases Path.parent? path with
  | none => exact KeepsNumbers.refl files
  | some parent => exact Edits.numbers (Files.makeDirectories_edits parent files : Edits Anywhere Anywhere files _)

structure Proceeds (path : String) (bytes : Bytes) (before : FileTree) (intake : Intake) (after : FileTree) : Prop where
  keeps : before.KeepsNumbers after
  elsewhere : ∀ place, place ≠ before.place path → after.content? place = before.content? place
  paused : ∀ pause next, intake = .paused pause next → ∀ place, after.content? place = before.content? place
  stored : intake = .answered (.ok ()) → after.content? (before.place path) = some bytes

theorem Proceeds.still {intake : Intake} {after : FileTree} (keeps : files.KeepsNumbers after)
    (same : ∀ place, after.content? place = files.content? place) (untaken : intake ≠ .answered (.ok ())) :
    Proceeds path bytes files intake after :=
  ⟨keeps, fun place _ => same place, fun _ _ _ => same, fun taken => absurd taken untaken⟩

theorem proceed_proceeds (numbered : files.IsNumbered) {store : DirectoryStore} {id : String} {type : DocumentType}
    (kept : store.objectPath id type = .ok path) (stage : PutStage) (bytes : Bytes) :
    Proceeds path bytes files (store.proceed stage id type bytes files).1 (store.proceed stage id type bytes files).2 := by
  unfold proceed
  rw [kept]
  cases stage with
  | due => exact .still (KeepsNumbers.refl files) (fun _ => rfl) (by simp)
  | preparing =>
      have grows := makeParent_grows path files
      have keeps := makeParent_numbers path files
      dsimp only
      cases made : makeParent path files with
      | ok value after =>
          rw [stateAfter_of_ok made] at grows keeps
          exact .still keeps grows.content? (by simp)
      | error fault after =>
          rw [stateAfter_of_error made] at grows keeps
          exact .still keeps grows.content? (by simp)
  | storing =>
      have keeps := Files.writeAll_numbers path bytes files
      dsimp only
      rcases Files.writeAll_result numbered path bytes with ⟨fault, failed⟩ | ⟨after, done, there, others⟩
      · rw [failed]
        exact .still (KeepsNumbers.refl files) (fun _ => rfl) (by simp)
      · rw [stateAfter_of_ok done] at keeps
        rw [done]
        exact ⟨keeps, others, by simp, fun _ => there⟩

theorem proceed_of_refused {store : DirectoryStore} {id : String} {type : DocumentType} {fault : StoreFault}
    (refused : store.objectPath id type = .error fault) (stage : PutStage) (bytes : Bytes) (files : FileTree) :
    store.proceed stage id type bytes files = (.answered (.error fault), files) := by
  rw [proceed, refused]

end DirectoryStore

namespace MemoryStore

def find? (id : String) (type : DocumentType) (documents : List Document) : Option Document :=
  documents.find? fun document => document.id = id ∧ document.type = type

theorem find?_place (document : Document) (documents : List Document) (id : String) (type : DocumentType) :
    find? id type (place document documents) =
      if document.id = id ∧ document.type = type then some document else find? id type documents := by
  unfold find?
  induction documents with
  | nil => by_cases same : document.id = id ∧ document.type = type <;> simp [place, same]
  | cons other rest ih =>
      unfold place
      by_cases here : other.id = document.id ∧ other.type = document.type
      · rw [if_pos here]
        by_cases same : document.id = id ∧ document.type = type
        · simp [same]
        · simp [same, here]
      · rw [if_neg here]
        by_cases found : other.id = id ∧ other.type = type
        · have different : ¬ (document.id = id ∧ document.type = type) := by
            rintro ⟨rfl, rfl⟩
            exact here found
          simp [found, different]
        · simp only [List.find?_cons, found, decide_false, ih]

end MemoryStore

namespace ObjectStore

def document? (store : ObjectStore) (files : FileTree) (id : String) (type : DocumentType) : Option Bytes :=
  match store.backend with
  | .memory memory => (MemoryStore.find? id type memory.documents).map (·.bytes)
  | .directory directory =>
    match directory.objectPath id type with
    | .ok path => files.content? (files.place path)
    | .error _ => none

end ObjectStore

namespace StorageKey

/-- The last name of an id. -/
structure EndsIn (id : String) (name : List Char) : Prop where
  named : Path.IsName name
  ends : ∃ front, id.toList = front ++ '/' :: name

theorem EndsIn.unique {id : String} {first second : List Char} (one : EndsIn id first) (two : EndsIn id second) :
    first = second := by
  have last : ∀ name, EndsIn id name → (Text.split '/' id.toList).getLast? = some name := by
    intro name ends
    obtain ⟨front, shape⟩ := ends.ends
    rw [shape, Text.split_append_separator, Text.split_of_notMem ends.named.whole, List.getLast?_concat]
  exact Option.some.inj ((last first one).symm.trans (last second two))

def IsPlain (sinkInstance : String) : Prop :=
  '/' ∉ sinkInstance.toList ∧ '\x00' ∉ sinkInstance.toList

theorem isName_batchName {sinkInstance : String} (plain : IsPlain sinkInstance) (batch : Nat) :
    Path.IsName (batchName sinkInstance batch) := by
  have line : '_' ∈ batchName sinkInstance batch := List.mem_append_right _ (List.mem_cons_self ..)
  have outside : ∀ c, c ∉ sinkInstance.toList → c ≠ '_' → c.isDigit = false → c ∉ batchName sinkInstance batch := by
    intro c absent other letter inside
    rcases List.mem_append.mp inside with front | back
    · exact absent front
    · rcases List.mem_cons.mp back with same | digit
      · exact other same
      · rw [isDigit_of_mem_batchDigits digit] at letter
        exact absurd letter (by decide)
  refine ⟨?_, outside _ plain.1 (by decide) (by decide), outside _ plain.2 (by decide) (by decide), ?_, ?_⟩
  · exact List.ne_nil_of_mem line
  · intro same
    rw [same] at line
    exact absurd line (by decide)
  · intro same
    rw [same] at line
    exact absurd line (by decide)

theorem endsIn_batchId (base : String) {sinkInstance : String} (plain : IsPlain sinkInstance) (batch : Nat) :
    EndsIn (batchId base sinkInstance batch) (batchName sinkInstance batch) :=
  ⟨isName_batchName plain batch, base.toList, toList_batchId base sinkInstance batch⟩

end StorageKey

theorem Path.joinChars_ends (base path : List Char) : ∃ front, joinChars base path = front ++ path := by
  unfold joinChars
  split
  · exact ⟨[], rfl⟩
  · split
    · exact ⟨[], rfl⟩
    next last _ =>
      split
      · exact ⟨base, rfl⟩
      · exact ⟨base ++ ['/'], by simp⟩

namespace DirectoryStore

open FileTree

theorem place_objectPath {store : DirectoryStore} {id path : String} {type : DocumentType} {name : List Char}
    (ends : StorageKey.EndsIn id name) (kept : store.objectPath id type = .ok path) (files : FileTree) :
    ∃ parent, files.place path = parent ++ [String.ofList name] := by
  unfold objectPath at kept
  split at kept
  · obtain ⟨front, shape⟩ := ends.ends
    obtain ⟨above, joined⟩ := Path.joinChars_ends (Path.join store.root type.area).toList id.toList
    refine place_of_ends ends.named (show path.toList = (above ++ front) ++ '/' :: name from ?_)
    rw [← Except.ok.inj kept, Path.join, String.toList_ofList, joined, shape, List.append_assoc]
  · simp at kept

end DirectoryStore

namespace ObjectStore

open FileTree

variable {files : FileTree}

theorem proceed_numbers (store : ObjectStore) (stage : PutStage) (id : String) (type : DocumentType) (bytes : Bytes)
    (numbered : files.IsNumbered) : files.KeepsNumbers (store.proceed stage id type bytes files).2.2 := by
  obtain ⟨backend, latency⟩ := store
  cases backend with
  | memory memory =>
      unfold proceed
      dsimp only
      split <;> exact KeepsNumbers.refl files
  | directory directory =>
      unfold proceed
      dsimp only
      cases kept : directory.objectPath id type with
      | error fault =>
          rw [DirectoryStore.proceed_of_refused kept]
          exact KeepsNumbers.refl files
      | ok path => exact (DirectoryStore.proceed_proceeds numbered kept stage bytes).keeps

theorem document?_proceed (store : ObjectStore) (stage : PutStage) (id : String) (type : DocumentType) (bytes : Bytes)
    (numbered : files.IsNumbered) (taken : (store.proceed stage id type bytes files).1 = .answered (.ok ())) :
    (store.proceed stage id type bytes files).2.1.document? (store.proceed stage id type bytes files).2.2 id type =
      some bytes := by
  obtain ⟨backend, latency⟩ := store
  cases backend with
  | memory memory =>
      simp only [proceed, MemoryStore.put] at taken ⊢
      split at taken
      next asked =>
        rw [if_pos asked]
        split at taken
        · simp at taken
        next answers => simp [answers, document?, MemoryStore.find?_place]
      · simp at taken
  | directory directory =>
      simp only [proceed] at taken ⊢
      cases kept : directory.objectPath id type with
      | error fault =>
          rw [DirectoryStore.proceed_of_refused kept] at taken
          simp at taken
      | ok path =>
          have went := DirectoryStore.proceed_proceeds numbered kept stage bytes
          simp only [document?, kept, place_congr went.keeps.home]
          exact went.stored taken

theorem document?_paused (store : ObjectStore) {stage next : PutStage} {id : String} {type : DocumentType} {bytes : Bytes}
    {pause : Pause} (numbered : files.IsNumbered)
    (paused : (store.proceed stage id type bytes files).1 = .paused pause next) (other : String)
    (otherType : DocumentType) :
    (store.proceed stage id type bytes files).2.1.document? (store.proceed stage id type bytes files).2.2 other otherType =
      store.document? files other otherType := by
  obtain ⟨backend, latency⟩ := store
  cases backend with
  | memory memory =>
      simp only [proceed] at paused ⊢
      split at paused
      · simp at paused
      next waits => rw [if_neg waits]
  | directory directory =>
      simp only [proceed] at paused ⊢
      cases kept : directory.objectPath id type with
      | error fault =>
          rw [DirectoryStore.proceed_of_refused kept] at paused
          simp at paused
      | ok path =>
          have went := DirectoryStore.proceed_proceeds numbered kept stage bytes
          simp only [document?]
          cases directory.objectPath other otherType with
          | error fault => rfl
          | ok otherPath =>
              simp only [place_congr went.keeps.home]
              exact went.paused pause next paused _

theorem document?_proceed_other (store : ObjectStore) (stage : PutStage) {id other : String} (type otherType : DocumentType)
    (bytes : Bytes) (numbered : files.IsNumbered) {name otherName : List Char} (ends : StorageKey.EndsIn id name)
    (otherEnds : StorageKey.EndsIn other otherName) (different : name ≠ otherName) :
    (store.proceed stage id type bytes files).2.1.document? (store.proceed stage id type bytes files).2.2 other otherType =
      store.document? files other otherType := by
  obtain ⟨backend, latency⟩ := store
  cases backend with
  | memory memory =>
      have apart : id ≠ other := by
        rintro rfl
        exact different (ends.unique otherEnds)
      simp only [proceed, MemoryStore.put]
      split
      · split
        · rfl
        · simp [document?, MemoryStore.find?_place, apart]
      · rfl
  | directory directory =>
      simp only [proceed]
      cases kept : directory.objectPath id type with
      | error fault => rw [DirectoryStore.proceed_of_refused kept]
      | ok path =>
          have went := DirectoryStore.proceed_proceeds numbered kept stage bytes
          obtain ⟨parent, here⟩ := DirectoryStore.place_objectPath ends kept files
          simp only [document?]
          cases keptOther : directory.objectPath other otherType with
          | error fault => rfl
          | ok otherPath =>
              obtain ⟨otherParent, there⟩ := DirectoryStore.place_objectPath otherEnds keptOther files
              simp only [place_congr went.keeps.home]
              refine went.elsewhere _ ?_
              rw [here, there]
              intro same
              have names := List.singleton_inj.mp (List.append_inj' same rfl).2
              exact different (String.ofList_inj.mp names).symm

/-- A store that goes on with an object until it answers, while nothing else happens. -/
inductive Completes (id : String) (type : DocumentType) (bytes : Bytes) :
    PutStage → ObjectStore → FileTree → Except StoreFault Unit → ObjectStore → FileTree → Prop
  | answered {stage : PutStage} {before after : ObjectStore} {files left : FileTree} {result : Except StoreFault Unit}
      (taken : before.proceed stage id type bytes files = (.answered result, after, left)) :
      Completes id type bytes stage before files result after left
  | paused {stage next : PutStage} {before between after : ObjectStore} {files meanwhile left : FileTree} {pause : Pause}
      {result : Except StoreFault Unit}
      (gone : before.proceed stage id type bytes files = (.paused pause next, between, meanwhile))
      (rest : Completes id type bytes next between meanwhile result after left) :
      Completes id type bytes stage before files result after left

theorem completes_put (store : ObjectStore) (id : String) (type : DocumentType) (bytes : Bytes) (files : FileTree) :
    Completes id type bytes .due store files (store.put id type bytes files).1 (store.put id type bytes files).2.1
      (store.put id type bytes files).2.2 := by
  obtain ⟨backend, latency⟩ := store
  cases backend with
  | memory memory =>
      have answers : ∀ stage, stage = .storing ∨ latency = 0 → proceed ⟨.memory memory, latency⟩ stage id type bytes files =
          (.answered (memory.put id type bytes).1, ⟨.memory (memory.put id type bytes).2, latency⟩, files) := by
        intro stage asked
        simp [proceed, asked]
      by_cases quick : latency = 0
      · exact .answered (answers .due (.inr quick))
      · have slow : proceed ⟨.memory memory, latency⟩ .due id type bytes files =
            (.paused (.sleep latency) .storing, ⟨.memory memory, latency⟩, files) := by simp [proceed, quick]
        exact .paused slow (.answered (answers .storing (.inl rfl)))
  | directory directory =>
      have goes : ∀ stage before, proceed ⟨.directory directory, latency⟩ stage id type bytes before =
          ((directory.proceed stage id type bytes before).1, ⟨.directory directory, latency⟩,
            (directory.proceed stage id type bytes before).2) := fun _ _ => rfl
      simp only [put, DirectoryStore.put]
      cases kept : directory.objectPath id type with
      | error fault =>
          refine .answered ?_
          rw [goes, DirectoryStore.proceed_of_refused kept]
      | ok path =>
          have begins : directory.proceed .due id type bytes files = (.paused .away .preparing, files) := by
            simp [DirectoryStore.proceed, kept]
          refine .paused ((goes .due files).trans (by rw [begins])) ?_
          have prepares := goes .preparing files
          simp only [DirectoryStore.writeObject]
          cases made : DirectoryStore.makeParent path files with
          | error fault after =>
              rw [bind_of_error made]
              refine .answered (prepares.trans ?_)
              simp [DirectoryStore.proceed, kept, made]
          | ok value after =>
              rw [bind_of_ok made]
              have ready : directory.proceed .preparing id type bytes files = (.paused .away .storing, after) := by
                simp [DirectoryStore.proceed, kept, made]
              refine .paused (prepares.trans (by rw [ready])) (.answered ((goes .storing after).trans ?_))
              simp only [DirectoryStore.proceed, kept]
              cases Files.writeAll path bytes after <;> rfl

end ObjectStore

end KeyedLog
