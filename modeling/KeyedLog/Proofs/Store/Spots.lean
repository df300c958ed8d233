import KeyedLog.Proofs.Files.Lacking
import KeyedLog.Proofs.Store.Documents
import KeyedLog.Proofs.Store.ObjectPaths
import KeyedLog.Proofs.Store.Records

/-!
Ids that are paths of files. The path of an object with such an id is one that a file can have, and its place is told by the
root and the key of the object alone.
-/

namespace KeyedLog

open KeyedLog.Path FileTree

namespace Document

def pieces (document : Document) : List (List Char) :=
  Text.split '/' document.id.toList

def spot (document : Document) : List String :=
  document.type.area :: document.pieces.map String.ofList

variable {one other : Document}

theorem ofList_pieces_inj {one other : List (List Char)} :
    one.map String.ofList = other.map String.ofList ↔ one = other :=
  List.map_inj_right fun _ _ => String.ofList_inj.mp

theorem spot_prefix_iff : one.spot <+: other.spot ↔ one.type = other.type ∧ one.pieces <+: other.pieces := by
  have names : one.pieces.map String.ofList <+: other.pieces.map String.ofList ↔ one.pieces <+: other.pieces := by
    refine ⟨fun front => ?_, fun front => front.map _⟩
    obtain ⟨pieces, shorter, same⟩ := List.prefix_map_iff.mp front
    rwa [ofList_pieces_inj.mp same]
  rw [spot, spot, List.cons_prefix_cons, names]
  exact and_congr_left fun _ => ⟨DocumentType.area_injective, congrArg _⟩

theorem pieces_inj : one.pieces = other.pieces ↔ one.id = other.id := by
  refine ⟨fun same => ?_, fun same => by rw [pieces, pieces, same]⟩
  rw [← String.toList_inj, ← Text.join_split '/' one.id.toList, ← Text.join_split '/' other.id.toList]
  exact congrArg _ same

theorem spot_inj : one.spot = other.spot ↔ one.key = other.key := by
  constructor
  · intro same
    obtain ⟨area, names⟩ := List.cons.inj same
    exact Prod.ext (pieces_inj.mp (ofList_pieces_inj.mp names)) (DocumentType.area_injective area)
  · intro same
    obtain ⟨id, type⟩ := Prod.mk.inj same
    rw [spot, spot, pieces_inj.mpr id, type]

end Document

instance (name : List Char) : Decidable (IsName name) :=
  decidable_of_iff (name ≠ [] ∧ '/' ∉ name ∧ '\x00' ∉ name ∧ name ≠ ['.'] ∧ name ≠ Path.above)
    ⟨fun ⟨nonempty, whole, clean, ordinary, down⟩ => ⟨nonempty, whole, clean, ordinary, down⟩,
      fun named => ⟨named.nonempty, named.whole, named.clean, named.ordinary, named.down⟩⟩

theorem DocumentType.isName_area (type : DocumentType) : IsName type.area.toList := by
  cases type <;> decide

namespace DirectoryStore

def path (store : DirectoryStore) (document : Document) : String :=
  join (join store.root document.type.area) document.id

/-- The id of an object is a relative path of names that files can have, and the path of the object is not too long. -/
structure Fits (store : DirectoryStore) (document : Document) : Prop where
  named : ∀ piece ∈ document.pieces, IsName piece
  short : ∀ piece ∈ document.pieces, (Utf8.encodeChars piece).length ≤ maxNameLength
  whole : (Utf8.encodeChars (store.path document).toList).length < maxPathLength

instance (store : DirectoryStore) (document : Document) : Decidable (store.Fits document) :=
  decidable_of_iff ((∀ piece ∈ document.pieces, IsName piece ∧ (Utf8.encodeChars piece).length ≤ maxNameLength) ∧
      (Utf8.encodeChars (store.path document).toList).length < maxPathLength)
    ⟨fun ⟨pieces, whole⟩ => ⟨fun piece member => (pieces piece member).1, fun piece member => (pieces piece member).2, whole⟩,
      fun fits => ⟨fun piece member => ⟨fits.named piece member, fits.short piece member⟩, fits.whole⟩⟩

namespace Fits

variable {store : DirectoryStore} {document : Document} {tree : FileTree}

theorem steps_eq (fits : store.Fits document) : steps document.id.toList = document.pieces := by
  refine List.filter_eq_self.mpr ?_
  intro piece member
  simpa using (fits.named piece member).nonempty

theorem names_eq (fits : store.Fits document) : names document.id.toList = document.pieces := by
  refine List.filter_eq_self.mpr ?_
  intro piece member
  have named := fits.named piece member
  simp [isIdle, named.nonempty, named.ordinary]

theorem plain (fits : store.Fits document) : ¬ LeadsAway document.id := by
  rintro (empty | root | here | up)
  · refine (fits.named [] ?_).nonempty rfl
    rw [Document.pieces, empty]
    exact List.mem_cons_self
  · obtain ⟨rest, shape⟩ := List.head?_eq_some_iff.mp root
    refine (fits.named [] ?_).nonempty rfl
    rw [Document.pieces, shape, Text.split, if_pos rfl]
    exact List.mem_cons_self
  · exact (fits.named _ (List.mem_of_mem_head? here)).ordinary rfl
  · exact (fits.named _ up).down rfl

theorem kept (fits : store.Fits document) : store.objectPath document.id document.type = .ok (store.path document) := by
  obtain ⟨away, -⟩ | ⟨-, accepted⟩ := objectPath_eq store document.id document.type
  · exact absurd away fits.plain
  · exact accepted

theorem place (fits : store.Fits document) (tree : FileTree) :
    tree.place (store.path document) = tree.place store.root ++ document.spot := by
  rw [places_objectPath fits.kept, fits.names_eq, Document.spot]

theorem relative (fits : store.Fits document) : document.id.toList.head? ≠ some '/' :=
  fun root => fits.plain (.inr (.inl root))

theorem pathNames_eq (fits : store.Fits document) :
    pathNames (store.path document) = pathNames store.root ++ document.spot := by
  rw [pathNames, path, join, join, String.toList_ofList, String.toList_ofList, steps_joinChars _ fits.relative,
    steps_joinChars _ document.type.relative_area, fits.steps_eq, DocumentType.steps_area, List.map_append, List.map_append,
    List.append_assoc, List.map_singleton, String.ofList_toList]
  rfl

theorem origin_eq (fits : store.Fits document) (tree : FileTree) :
    tree.origin (store.path document).toList = tree.origin store.root.toList := by
  rw [path, join, join, String.toList_ofList, String.toList_ofList, origin_joinChars tree _ fits.relative,
    origin_joinChars tree _ document.type.relative_area]

theorem named_spot (fits : store.Fits document) : ∀ name ∈ document.spot, IsName name.toList := by
  intro name member
  rcases List.mem_cons.mp member with rfl | member
  · exact document.type.isName_area
  · obtain ⟨piece, inside, rfl⟩ := List.mem_map.mp member
    rw [String.toList_ofList]
    exact fits.named piece inside

theorem onward (fits : store.Fits document) : ∀ name ∈ document.spot, name ≠ "." ∧ name ≠ ".." := by
  intro name member
  have named := fits.named_spot name member
  exact ⟨fun here => named.ordinary (congrArg String.toList here), fun up => named.down (congrArg String.toList up)⟩

theorem short_spot (fits : store.Fits document) : ∀ name ∈ document.spot, (Utf8.encode name).length ≤ maxNameLength := by
  intro name member
  rcases List.mem_cons.mp member with rfl | member
  · cases document.type <;> decide
  · obtain ⟨piece, inside, rfl⟩ := List.mem_map.mp member
    simpa [Utf8.encode] using fits.short piece inside

theorem clean (fits : store.Fits document) (root : '\x00' ∉ store.root.toList) :
    '\x00' ∉ (store.path document).toList := by
  intro inside
  rw [path, join, join, String.toList_ofList, String.toList_ofList] at inside
  rcases mem_of_mem_joinChars inside with first | slash | last
  · rcases mem_of_mem_joinChars first with first | slash | area
    · exact root first
    · exact absurd slash (by decide)
    · exact document.type.isName_area.clean area
  · exact absurd slash (by decide)
  · rw [← Text.join_split '/' document.id.toList] at last
    rcases Text.mem_of_mem_join last with slash | ⟨piece, member, found⟩
    · exact absurd slash (by decide)
    · exact (fits.named piece member).clean found

theorem loose (fits : store.Fits document) : (store.path document).toList.getLast? ≠ some '/' := by
  intro slash
  have real : document.id.toList ≠ [] := fun empty => fits.plain (.inl (String.toList_eq_nil_iff.mp empty))
  obtain ⟨above, joined⟩ := joinChars_ends (join store.root document.type.area).toList document.id.toList
  rw [path, join, String.toList_ofList, joined, List.getLast?_append_of_ne_nil _ real] at slash
  obtain ⟨initial, shape⟩ := List.getLast?_eq_some_iff.mp slash
  refine (fits.named [] ?_).nonempty rfl
  rw [Document.pieces, shape, Text.split_append_separator]
  exact List.mem_append_right _ List.mem_cons_self

theorem isFilePath (fits : store.Fits document)
    (root : ∀ name ∈ pathNames store.root, (Utf8.encode name).length ≤ maxNameLength) : IsFilePath (store.path document) := by
  refine ⟨fits.loose, ?_, ?_⟩
  · obtain ⟨initial, last, split⟩ := (List.eq_nil_or_concat' document.pieces).resolve_left (Text.split_ne_nil _ _)
    have joined :
        steps (store.path document).toList = steps (join store.root document.type.area).toList ++ document.pieces := by
      rw [path, join, String.toList_ofList, steps_joinChars _ fits.relative, fits.steps_eq]
    exact ⟨_, last, by rw [joined, split, List.append_assoc], fits.named last (by simp [split])⟩
  · intro name member
    rw [fits.pathNames_eq] at member
    rcases List.mem_append.mp member with upper | lower
    · exact root name upper
    · exact fits.short_spot name lower

theorem ready (fits : store.Fits document) (root : '\x00' ∉ store.root.toList) (tree : FileTree) :
    ∃ route, tree.route (store.path document) = .ok route := by
  have real : (store.path document).toList ≠ [] := by
    intro empty
    obtain ⟨above, joined⟩ := joinChars_ends (join store.root document.type.area).toList document.id.toList
    rw [path, join, String.toList_ofList, joined, List.append_eq_nil_iff] at empty
    exact fits.plain (.inl (String.toList_eq_nil_iff.mp empty.2))
  have shape := route_of_short tree (fits.clean root) real
  rw [if_pos fits.whole, String.ofList_toList] at shape
  exact ⟨_, shape⟩

end Fits

end DirectoryStore

end KeyedLog
