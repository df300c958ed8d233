import KeyedLog.Proofs.Files.ClearWays
import KeyedLog.Proofs.Store.Spots

/-!
Two stores, one contract. What a directory holds after a sequence of puts is what a store in memory holds after it, as long
as the ids can be paths of files that do not stand in each other's way.
-/

namespace KeyedLog

open KeyedLog.Path FileTree

/-- Nothing is below the root of a store, and what is missing of the way to it can be made: no file bars this way, and it does
not come by a place below the root. -/
structure FileTree.IsBlank (tree : FileTree) (root : String) : Prop where
  clean : '\x00' ∉ root.toList
  clear : tree.Clear (tree.origin root.toList) (pathNames root)
  direct : ∀ rest, rest ≠ [] → tree.place root ++ rest ∉ passed (tree.origin root.toList) (pathNames root)
  bare : ∀ rest, rest ≠ [] → tree.node? (tree.place root ++ rest) = none

namespace DirectoryStore

def after (store : DirectoryStore) (files : FileTree) (puts : List Document) : FileTree :=
  puts.foldl (fun files document => (store.put document.id document.type document.bytes files).2) files

structure Stores (before after : FileTree) (place : Location) (bytes : Bytes) (way : List Location) : Prop where
  sound : after.IsSound
  home : after.workingDirectory = before.workingDirectory
  here : after.content? place = some bytes
  elsewhere : ∀ location, location ≠ place → after.content? location = before.content? location
  directories : ∀ location, after.node? location = some .directory →
    before.node? location = some .directory ∨ location ∈ way

variable {store : DirectoryStore} {document : Document} {tree : FileTree} {path : String}

theorem writeObject_of_clear {route : Route} (sound : tree.IsSound) (file : IsFilePath path)
    (ready : tree.route path = .ok route)
    (clear : tree.Clear (tree.origin path.toList) (pathNames path).dropLast)
    (free : tree.node? (tree.place path) ≠ some .directory)
    (apart : tree.place path ∉ passed (tree.origin path.toList) (pathNames path).dropLast) (bytes : Bytes) :
    ∃ after, writeObject path bytes tree = .ok () after ∧
      Stores tree after (tree.place path) bytes (passed (tree.origin path.toList) (pathNames path).dropLast) := by
  obtain ⟨before, last, steps, named⟩ := file.named
  obtain ⟨above, count, isAbove, rfl⟩ := above_of_last steps named.ordinary
  have names := Files.dropLast_of_steps steps
  have origin : tree.origin above.toList = tree.origin path.toList := Files.origin_above isAbove
  rw [names] at clear
  obtain ⟨middle, made, way, makes⟩ := Files.makeDirectories_of_clear sound isAbove.tidy
    (fun real => Files.route_above isAbove real ready) (by rw [origin]; exact clear.front)
  rw [origin] at way
  have within : passed (tree.origin above.toList) (pathNames above) ⊆
      passed (tree.origin path.toList) (pathNames path).dropLast := by
    rw [origin, names, passed_append]
    exact List.subset_append_left ..
  have makes := makes.mono within
  have home := makes.grows.home
  have originMiddle : middle.origin path.toList = tree.origin path.toList := by simp only [FileTree.origin, home]
  have soundMiddle := makes.grows.sound sound
  have wayDots : middle.follow (middle.origin path.toList) (pathNames path).dropLast = .ok (tree.place above) := by
    rw [originMiddle, names, follow_append, way]
    exact follow_dots (follow_directory (originMiddle ▸ origin_directory soundMiddle path.toList) way) count
  obtain ⟨initial, name, shape, found⟩ := file.slot ((route_congr home path).trans ready) wayDots
  have nameable : middle.Names path (tree.place above) name := ⟨found, file.short name (by simp [shape])⟩
  have place : tree.place above ++ [name] = tree.place path := by rw [← nameable.place, place_congr home]
  have freeMiddle : middle.node? (tree.place above ++ [name]) ≠ some .directory := by
    rw [place]
    exact fun stands => (makes.of_stands stands).elim free apart
  obtain ⟨id, created, create, became⟩ := Files.create_ok soundMiddle nameable freeMiddle
  obtain ⟨after, append, wrote⟩ := Files.append_ok became.sound (by rw [became.nodes, Function.update_self]) bytes
  rw [place] at became wrote
  have nodes : after.node? = Function.update middle.node? (tree.place path) (some (.file id bytes)) := by
    rw [wrote.nodes, became.nodes, Function.update_idem, List.nil_append]
  refine ⟨after, ?_, wrote.sound, wrote.home.trans (became.home.trans home), ?_, ?_, ?_⟩
  · unfold writeObject makeParent
    rw [isAbove.parent]
    exact (bind_of_ok made).trans ((bind_of_ok create).trans append)
  · rw [FileTree.content?, nodes, Function.update_self]
    rfl
  · intro location other
    rw [FileTree.content?, nodes, Function.update_of_ne other]
    exact makes.grows.content? location
  · intro location stands
    rw [nodes] at stands
    by_cases here : location = tree.place path
    · rw [here, Function.update_self] at stands
      simp at stands
    · rw [Function.update_of_ne here] at stands
      exact makes.of_stands stands

/-- The files hold the objects below the root, each in a file of its own, and no directories that lead to none of them. -/
structure Mirrors (store : DirectoryStore) (files : FileTree) (documents : List Document) (tree : FileTree) : Prop where
  sound : tree.IsSound
  home : tree.workingDirectory = files.workingDirectory
  clear : tree.Clear (files.origin store.root.toList) (pathNames store.root)
  objects : ∀ rest, rest ≠ [] → ∀ content, tree.content? (files.place store.root ++ rest) = some content ↔
    ∃ document ∈ documents, document.spot = rest ∧ document.bytes = content
  directories : ∀ rest, rest ≠ [] → tree.node? (files.place store.root ++ rest) = some .directory →
    ∃ document ∈ documents, rest <+: document.spot ∧ rest ≠ document.spot

variable {files : FileTree} {documents : List Document}

theorem mirrors_blank (sound : files.IsSound) (blank : files.IsBlank store.root) : Mirrors store files [] files := by
  refine ⟨sound, rfl, blank.clear, ?_, ?_⟩
  · intro rest below content
    simp [FileTree.content?, blank.bare rest below]
  · intro rest below stands
    simp [blank.bare rest below] at stands

theorem mem_passed_spot (fits : store.Fits document) {location : Location}
    (member : location ∈ passed (files.origin store.root.toList) (pathNames (store.path document)).dropLast) :
    location ∈ passed (files.origin store.root.toList) (pathNames store.root) ∨
      ∃ rest, rest ≠ [] ∧ rest <+: document.spot ∧ rest ≠ document.spot ∧ location = files.place store.root ++ rest := by
  have real : document.spot ≠ [] := List.cons_ne_nil _ _
  have onward : ∀ name ∈ document.spot.dropLast, name ≠ "." ∧ name ≠ ".." :=
    fun name inside => fits.onward name (List.dropLast_subset _ inside)
  rw [fits.pathNames_eq, List.dropLast_append_of_ne_nil real, passed_append, List.mem_append, mem_passed_down onward,
    ← place_eq] at member
  refine member.imp_right ?_
  rintro ⟨rest, below, front, shape⟩
  refine ⟨rest, below, front.trans (List.dropLast_prefix _), ?_, shape⟩
  rintro rfl
  have longer := front.length_le
  rw [List.length_dropLast] at longer
  exact absurd longer (Nat.not_le_of_lt (Nat.sub_lt (List.length_pos_iff.mpr real) Nat.one_pos))

theorem Mirrors.clear_spot (mirrors : Mirrors store files documents tree) (fits : store.Fits document)
    (apart : ∀ other ∈ documents, other.spot <+: document.spot → other.spot = document.spot) :
    tree.Clear (files.origin store.root.toList) (pathNames (store.path document)).dropLast := by
  refine ⟨?_, ?_⟩
  · intro name member
    have inside := List.dropLast_subset _ member
    rw [fits.pathNames_eq] at inside
    exact (List.mem_append.mp inside).elim (mirrors.clear.short name) (fits.short_spot name)
  · intro location member id content stands
    rcases mem_passed_spot fits member with upper | ⟨rest, below, front, shorter, rfl⟩
    · exact mirrors.clear.free location upper id content stands
    · have held : tree.content? (files.place store.root ++ rest) = some content := by
        rw [FileTree.content?, stands]
        rfl
      obtain ⟨other, inside, rfl, -⟩ := (mirrors.objects rest below content).mp held
      exact shorter (apart other inside front)

theorem Mirrors.stores {after : FileTree} (mirrors : Mirrors store files documents tree)
    (blank : files.IsBlank store.root) (fits : store.Fits document) (once : (documents.map Document.key).Nodup)
    (stores : Stores tree after (files.place store.root ++ document.spot) document.bytes
      (passed (files.origin store.root.toList) (pathNames (store.path document)).dropLast)) :
    Mirrors store files (MemoryStore.place document documents) after := by
  have real : document.spot ≠ [] := List.cons_ne_nil _ _
  refine ⟨stores.sound, stores.home.trans mirrors.home, ⟨mirrors.clear.short, ?_⟩, ?_, ?_⟩
  · intro location member id content stands
    have other : location ≠ files.place store.root ++ document.spot := by
      rintro rfl
      exact blank.direct _ real member
    have held : after.content? location = some content := by
      rw [FileTree.content?, stands]
      rfl
    rw [stores.elsewhere location other] at held
    obtain ⟨node, there, file⟩ := Option.bind_eq_some_iff.mp held
    cases node with
    | directory => simp [FileNode.content?] at file
    | file number kept => exact mirrors.clear.free location member number kept there
  · intro rest below content
    by_cases here : rest = document.spot
    · subst here
      rw [stores.here, Option.some.injEq]
      constructor
      · rintro rfl
        exact ⟨document, (MemoryStore.mem_place once _).mpr (.inl rfl), rfl, rfl⟩
      · rintro ⟨other, inside, same, rfl⟩
        rcases (MemoryStore.mem_place once _).mp inside with rfl | ⟨-, different⟩
        · rfl
        · exact absurd (Document.spot_inj.mp same) different
    · have elsewhere : files.place store.root ++ rest ≠ files.place store.root ++ document.spot :=
        fun same => here (List.append_cancel_left same)
      rw [stores.elsewhere _ elsewhere, mirrors.objects rest below content]
      constructor
      · rintro ⟨other, inside, rfl, rfl⟩
        exact ⟨other, (MemoryStore.mem_place once _).mpr (.inr ⟨inside, mt Document.spot_inj.mpr here⟩), rfl, rfl⟩
      · rintro ⟨other, inside, rfl, rfl⟩
        rcases (MemoryStore.mem_place once _).mp inside with rfl | ⟨old, -⟩
        · exact absurd rfl here
        · exact ⟨other, old, rfl, rfl⟩
  · -- A directory was there before, and leads to an object that may have been replaced, or it was made on the way.
    intro rest below stands
    rcases stores.directories _ stands with old | made
    · obtain ⟨other, inside, front, shorter⟩ := mirrors.directories rest below old
      by_cases same : other.key = document.key
      · rw [Document.spot_inj.mpr same] at front shorter
        exact ⟨document, (MemoryStore.mem_place once _).mpr (.inl rfl), front, shorter⟩
      · exact ⟨other, (MemoryStore.mem_place once _).mpr (.inr ⟨inside, same⟩), front, shorter⟩
    · rcases mem_passed_spot fits made with upper | ⟨other, -, front, shorter, same⟩
      · exact absurd upper (blank.direct rest below)
      · obtain rfl := List.append_cancel_left same
        exact ⟨document, (MemoryStore.mem_place once _).mpr (.inl rfl), front, shorter⟩

theorem Mirrors.put (mirrors : Mirrors store files documents tree) (blank : files.IsBlank store.root)
    (fits : store.Fits document) (once : (documents.map Document.key).Nodup)
    (apart : ∀ other ∈ documents, document.spot <+: other.spot ∨ other.spot <+: document.spot → other.spot = document.spot) :
    ∃ after, store.put document.id document.type document.bytes tree = (.ok (), after) ∧
      Mirrors store files (MemoryStore.place document documents) after ∧
      ∀ location, location ≠ files.place store.root ++ document.spot → after.content? location = tree.content? location := by
  have real : document.spot ≠ [] := List.cons_ne_nil _ _
  have origin : tree.origin (store.path document).toList = files.origin store.root.toList := by
    rw [fits.origin_eq]
    simp only [FileTree.origin, mirrors.home]
  have place : tree.place (store.path document) = files.place store.root ++ document.spot := by
    rw [place_congr mirrors.home, fits.place]
  obtain ⟨route, ready⟩ := fits.ready blank.clean tree
  have clear : tree.Clear (tree.origin (store.path document).toList) (pathNames (store.path document)).dropLast :=
    origin ▸ mirrors.clear_spot fits fun other inside front => apart other inside (.inr front)
  have free : tree.node? (tree.place (store.path document)) ≠ some .directory := by
    rw [place]
    intro stands
    obtain ⟨other, inside, front, shorter⟩ := mirrors.directories _ real stands
    exact shorter (apart other inside (.inl front)).symm
  have off : tree.place (store.path document) ∉
      passed (tree.origin (store.path document).toList) (pathNames (store.path document)).dropLast := by
    rw [origin, place]
    intro member
    rcases mem_passed_spot fits member with upper | ⟨rest, -, -, shorter, same⟩
    · exact blank.direct _ real upper
    · exact shorter (List.append_cancel_left same).symm
  obtain ⟨after, written, stores⟩ := writeObject_of_clear mirrors.sound (fits.isFilePath blank.clear.short) ready clear free
    off document.bytes
  rw [place] at stores
  rw [origin] at stores
  refine ⟨after, ?_, mirrors.stores blank fits once stores, stores.elsewhere⟩
  rw [DirectoryStore.put, fits.kept]
  simp only [written]

theorem after_append_singleton (store : DirectoryStore) (files : FileTree) (puts : List Document) (document : Document) :
    store.after files (puts ++ [document]) =
      (store.put document.id document.type document.bytes (store.after files puts)).2 := by
  rw [after, List.foldl_append, List.foldl_cons, List.foldl_nil, after]

end DirectoryStore

namespace MemoryStore

def holding (puts : List Document) : MemoryStore :=
  after (puts.map .put)

theorem not_isOut_puts (puts : List Document) : ¬ IsOut (puts.map .put) := by
  rintro ⟨before, count, since, shape, -⟩
  have member : Call.failNext count ∈ puts.map Call.put := by simp [shape]
  simp at member

theorem taken_puts (puts : List Document) : taken (puts.map .put) = puts := by
  induction puts using List.reverseRecOn with
  | nil => rfl
  | append_singleton puts document ih =>
      rw [List.map_append, List.map_singleton, taken_append_singleton, ih, takenAfter, takenAfter,
        if_neg (not_isOut_puts puts)]

theorem records_holding (puts : List Document) : Records puts (holding puts).documents := by
  have records := records_after (puts.map .put)
  rwa [taken_puts] at records

theorem put_holding (puts : List Document) (document : Document) :
    ((holding puts).put document.id document.type document.bytes).1 = .ok () ∧
      (holding (puts ++ [document])).documents = place document (holding puts).documents := by
  rw [holding, holding, List.map_append, List.map_singleton, MemoryStore.after_append_singleton, act, put_after,
    if_neg (not_isOut_puts puts)]
  exact ⟨rfl, rfl⟩

end MemoryStore

variable {store : DirectoryStore} {files : FileTree} {puts : List Document}

/-- No id of a put is a proper part of the way to another of the same type. -/
def IsApart (puts : List Document) : Prop :=
  ∀ one ∈ puts, ∀ other ∈ puts, one.type = other.type → one.pieces <+: other.pieces → one.pieces = other.pieces

instance (puts : List Document) : Decidable (IsApart puts) :=
  inferInstanceAs (Decidable (∀ one ∈ puts, ∀ other ∈ puts,
    one.type = other.type → one.pieces <+: other.pieces → one.pieces = other.pieces))

theorem IsApart.spots (apart : IsApart puts) {one other : Document} (first : one ∈ puts) (second : other ∈ puts)
    (crossing : one.spot <+: other.spot ∨ other.spot <+: one.spot) : other.spot = one.spot := by
  have same : ∀ {one other}, one ∈ puts → other ∈ puts → one.spot <+: other.spot → other.spot = one.spot := by
    intro one other first second front
    obtain ⟨type, pieces⟩ := Document.spot_prefix_iff.mp front
    rw [Document.spot, Document.spot, type, apart one first other second type pieces]
  rcases crossing with front | front
  · exact same first second front
  · exact (same second first front).symm

namespace DirectoryStore

theorem Mirrors.put_next (blank : files.IsBlank store.root) (fits : ∀ document ∈ puts, store.Fits document)
    (apart : IsApart puts) {before behind : List Document} {document : Document} (split : puts = before ++ document :: behind)
    (mirrors : Mirrors store files (MemoryStore.holding before).documents (store.after files before)) :
    ∃ after, store.put document.id document.type document.bytes (store.after files before) = (.ok (), after) ∧
      Mirrors store files (MemoryStore.holding (before ++ [document])).documents after ∧
      ∀ location, location ≠ files.place store.root ++ document.spot →
        after.content? location = (store.after files before).content? location := by
  have records := MemoryStore.records_holding before
  have member : document ∈ puts := by simp [split]
  rw [(MemoryStore.put_holding before document).2]
  refine mirrors.put blank (fits document member) records.once ?_
  intro other inside crossing
  obtain ⟨front, back, shape, -⟩ := (records.last other).mp inside
  exact apart.spots member (by simp [split, shape]) crossing

theorem mirrors_after (sound : files.IsSound) (blank : files.IsBlank store.root)
    (fits : ∀ document ∈ puts, store.Fits document) (apart : IsApart puts) {before behind : List Document}
    (split : puts = before ++ behind) :
    Mirrors store files (MemoryStore.holding before).documents (store.after files before) := by
  induction before using List.reverseRecOn generalizing behind with
  | nil => exact mirrors_blank sound blank
  | append_singleton before document ih =>
      rw [List.append_assoc, List.singleton_append] at split
      obtain ⟨after, put, mirrors, -⟩ := (ih split).put_next blank fits apart split
      rw [after_append_singleton, put]
      exact mirrors

end DirectoryStore

open DirectoryStore MemoryStore in
/-- A directory and a store in memory agree on every sequence of puts whose ids are relative paths of names that files can have,
none of them standing in the way of another. Both take every put, and no put changes an object of another key. Afterwards
the files below the root are those of the objects that the store in memory holds: one for each key, with what was put last
for it. -/
theorem stores_agree (sound : files.IsSound) (blank : files.IsBlank store.root)
    (fits : ∀ document ∈ puts, store.Fits document) (apart : IsApart puts) :
    (∀ before document behind, puts = before ++ document :: behind →
      ((holding before).put document.id document.type document.bytes).1 = .ok () ∧
      (store.put document.id document.type document.bytes (store.after files before)).1 = .ok () ∧
      (∀ other : Document, other.key ≠ document.key →
        (other ∈ (holding (before ++ [document])).documents ↔ other ∈ (holding before).documents)) ∧
      ∀ location, location ≠ files.place store.root ++ document.spot →
        (store.after files (before ++ [document])).content? location = (store.after files before).content? location) ∧
    Records puts (holding puts).documents ∧
    (store.after files puts).IsSound ∧
    (∀ rest, rest ≠ [] → ∀ content, (store.after files puts).content? (files.place store.root ++ rest) = some content ↔
      ∃ document ∈ (holding puts).documents, document.spot = rest ∧ document.bytes = content) ∧
    ∀ one other : Document, one.spot = other.spot ↔ one.key = other.key := by
  have final := mirrors_after sound blank fits apart (List.append_nil puts).symm
  refine ⟨?_, records_holding puts, final.sound, final.objects, fun _ _ => Document.spot_inj⟩
  intro before document behind split
  obtain ⟨taken, placed⟩ := put_holding before document
  obtain ⟨after, put, -, elsewhere⟩ := (mirrors_after sound blank fits apart split).put_next blank fits apart split
  refine ⟨taken, by rw [put], ?_, ?_⟩
  · intro other different
    rw [placed, mem_place (records_holding before).once]
    constructor
    · rintro (rfl | ⟨inside, -⟩)
      · exact absurd rfl different
      · exact inside
    · exact fun inside => .inr ⟨inside, different⟩
  · rw [DirectoryStore.after_append_singleton, put]
    exact elsewhere

def sharedPuts : List Document :=
  [⟨"ws/a", .applicationLogs, [1]⟩, ⟨"ws/b", .applicationLogs, [2]⟩, ⟨"ws/a", .jobLogs, [3]⟩, ⟨"ws/a", .applicationLogs, [4]⟩]

theorem isBlank_logs : (FileTree.empty ["srv"]).IsBlank "logs" := by
  have way : passed ((FileTree.empty ["srv"]).origin "logs".toList) (pathNames "logs") = [["srv", "logs"]] := by decide
  have place : (FileTree.empty ["srv"]).place "logs" = ["srv", "logs"] := by decide
  have bare : ∀ rest, (FileTree.empty ["srv"]).node? (["srv", "logs"] ++ rest) = none := by
    intro rest
    rw [node?_empty, if_neg]
    intro front
    have longer := front.length_le
    simp at longer
  refine ⟨by decide, ⟨by decide, ?_⟩, ?_, ?_⟩
  · rw [way]
    intro location member id content
    rw [List.mem_singleton.mp member, ← List.append_nil ["srv", "logs"], bare]
    simp
  · rw [way, place]
    intro rest below
    simpa using below
  · rw [place]
    exact fun rest _ => bare rest

theorem stores_agree_shared :
    (DirectoryStore.after ⟨"logs"⟩ (FileTree.empty ["srv"]) sharedPuts).content?
        ["srv", "logs", "app-logging", "ws", "a"] = some [4] ∧
      (DirectoryStore.after ⟨"logs"⟩ (FileTree.empty ["srv"]) sharedPuts).content?
        ["srv", "logs", "job-logging", "ws", "a"] = some [3] ∧
      (DirectoryStore.put ⟨"logs"⟩ "ws/a" .applicationLogs [4]
        (DirectoryStore.after ⟨"logs"⟩ (FileTree.empty ["srv"]) (sharedPuts.take 3))).1 = .ok () := by
  have fits : ∀ document ∈ sharedPuts, DirectoryStore.Fits ⟨"logs"⟩ document := by decide
  have apart : IsApart sharedPuts := by decide
  have place : (FileTree.empty ["srv"]).place (DirectoryStore.mk "logs").root = ["srv", "logs"] := by decide
  obtain ⟨each, -, -, objects, -⟩ := stores_agree (isSound_empty ["srv"]) isBlank_logs fits apart
  rw [place] at objects
  refine ⟨?_, ?_, (each (sharedPuts.take 3) ⟨"ws/a", .applicationLogs, [4]⟩ [] rfl).2.1⟩
  · exact (objects ["app-logging", "ws", "a"] (by simp) [4]).mpr ⟨⟨"ws/a", .applicationLogs, [4]⟩, by decide, by decide, rfl⟩
  · exact (objects ["job-logging", "ws", "a"] (by simp) [3]).mpr ⟨⟨"ws/a", .jobLogs, [3]⟩, by decide, by decide, rfl⟩

end KeyedLog
