import KeyedLog.Store
import Mathlib.Data.List.Induction
import Mathlib.Data.List.Nodup

/-!
What a store in memory makes of its calls. Which puts it takes, and what it then holds, is told from the history of the
calls alone: an outage covers the puts that follow its order directly, and of the puts that are taken the last one for
each key remains, where the first one for the key came.
-/

namespace KeyedLog

def Document.key (document : Document) : String × DocumentType :=
  (document.id, document.type)

namespace MemoryStore

inductive Call where
  | put (document : Document)
  | failNext (count : UInt32)
  deriving DecidableEq, Repr

def act (store : MemoryStore) : Call → MemoryStore
  | .put document => (store.put document.id document.type document.bytes).2
  | .failNext count => store.failNext count

def after (history : List Call) : MemoryStore :=
  history.foldl act {}

/-- Fewer puts have come since the last order to fail than it asked for. -/
def IsOut (history : List Call) : Prop :=
  ∃ before count, ∃ since : List Document, history = before ++ .failNext count :: since.map .put ∧
    since.length < count.toNat

def puts (history : List Call) : List Document :=
  history.filterMap fun
    | .put document => some document
    | .failNext _ => none

/-- These objects are what remains of a sequence of puts. -/
structure Records (puts documents : List Document) : Prop where
  once : (documents.map Document.key).Nodup
  last : ∀ document, document ∈ documents ↔
    ∃ before behind, puts = before ++ document :: behind ∧ ∀ later ∈ behind, later.key ≠ document.key
  /-- Objects stand in the order in which their keys came first. -/
  ordered : (documents.map Document.key).Pairwise fun one other =>
    (puts.map Document.key).idxOf one < (puts.map Document.key).idxOf other

variable {history : List Call} {document : Document} {documents stored : List Document}

theorem after_append_singleton (history : List Call) (call : Call) :
    after (history ++ [call]) = (after history).act call := by
  rw [after, List.foldl_append, List.foldl_cons, List.foldl_nil, after]

theorem place_eq_of_key {other : Document} (rest : List Document) (same : other.key = document.key) :
    place document (other :: rest) = document :: rest :=
  if_pos (Prod.mk.inj same)

theorem place_eq_of_other {other : Document} (rest : List Document) (different : other.key ≠ document.key) :
    place document (other :: rest) = other :: place document rest :=
  if_neg fun same => different (Prod.ext same.1 same.2)

theorem keys_place (document : Document) (documents : List Document) :
    (place document documents).map Document.key =
      if document.key ∈ documents.map Document.key then documents.map Document.key
      else documents.map Document.key ++ [document.key] := by
  induction documents with
  | nil => rfl
  | cons other rest ih =>
      by_cases here : other.key = document.key
      · simp [place_eq_of_key rest here, here]
      · have apart : document.key ≠ other.key := Ne.symm here
        simp only [place_eq_of_other rest here, List.map_cons, ih, List.mem_cons, apart, false_or]
        split <;> rfl

theorem mem_place (once : (documents.map Document.key).Nodup) (other : Document) :
    other ∈ place document documents ↔ other = document ∨ other ∈ documents ∧ other.key ≠ document.key := by
  induction documents with
  | nil => simp [place]
  | cons first rest ih =>
      obtain ⟨new, distinct⟩ := List.nodup_cons.mp once
      -- The keys are distinct, so that behind the object that is replaced there is none of its key.
      by_cases here : first.key = document.key
      · rw [place_eq_of_key rest here, List.mem_cons, List.mem_cons]
        constructor
        · rintro (same | behind)
          · exact .inl same
          · refine .inr ⟨.inr behind, fun same => new ?_⟩
            rw [here, ← same]
            exact List.mem_map_of_mem behind
        · rintro (same | ⟨rfl | behind, different⟩)
          · exact .inl same
          · exact absurd here different
          · exact .inr behind
      · rw [place_eq_of_other rest here, List.mem_cons, List.mem_cons, ih distinct]
        constructor
        · rintro (rfl | same | ⟨behind, different⟩)
          · exact .inr ⟨.inl rfl, here⟩
          · exact .inl same
          · exact .inr ⟨.inr behind, different⟩
        · rintro (same | ⟨rfl | behind, different⟩)
          · exact .inr (.inl same)
          · exact .inl rfl
          · exact .inr (.inr ⟨behind, different⟩)

theorem Records.nil : Records [] [] :=
  ⟨List.nodup_nil, by simp, List.Pairwise.nil⟩

theorem Records.mem_keys (records : Records stored documents) (key : String × DocumentType) :
    key ∈ documents.map Document.key ↔ key ∈ stored.map Document.key := by
  constructor
  · rw [List.mem_map]
    rintro ⟨document, kept, rfl⟩
    obtain ⟨before, behind, rfl, -⟩ := (records.last document).mp kept
    exact List.mem_map_of_mem (List.mem_append_right _ List.mem_cons_self)
  · intro came
    have present : (stored.reverse.find? fun document => document.key = key).isSome = true :=
      List.find?_isSome.mpr (by simpa using came)
    obtain ⟨document, found⟩ := Option.isSome_iff_exists.mp present
    obtain ⟨same, behind, before, reversed, others⟩ := List.find?_eq_some_iff_append.mp found
    have same : document.key = key := of_decide_eq_true same
    refine List.mem_map.mpr ⟨document, (records.last document).mpr ⟨before.reverse, behind.reverse, ?_, ?_⟩, same⟩
    · rw [← List.reverse_inj, reversed]
      simp
    · intro later inside
      have other := others later (List.mem_reverse.mp inside)
      rw [same]
      simpa using other

theorem Records.place (records : Records stored documents) (document : Document) :
    Records (stored ++ [document]) (place document documents) := by
  have keys := keys_place document documents
  refine ⟨?_, ?_, ?_⟩
  · rw [keys]
    split
    · exact records.once
    next new =>
      refine List.nodup_append.mpr ⟨records.once, List.pairwise_singleton .., ?_⟩
      rintro key inside _ (_ | ⟨_, ⟨⟩⟩) rfl
      exact new inside
  · intro other
    rw [mem_place records.once, records.last]
    constructor
    · rintro (rfl | ⟨⟨before, behind, rfl, others⟩, different⟩)
      · exact ⟨stored, [], rfl, by simp⟩
      · refine ⟨before, behind ++ [document], by simp, ?_⟩
        intro later inside
        rcases List.mem_append.mp inside with earlier | here
        · exact others later earlier
        · rw [List.mem_singleton.mp here]
          exact Ne.symm different
    · rintro ⟨before, behind, shape, others⟩
      rcases List.eq_nil_or_concat' behind with rfl | ⟨front, final, rfl⟩
      · exact .inl (List.singleton_inj.mp (List.append_inj' shape rfl).2).symm
      · obtain ⟨same, here⟩ := List.append_inj' (shape.trans (List.append_assoc before (other :: front) [final]).symm) rfl
        obtain rfl : document = final := List.singleton_inj.mp here
        refine .inr ⟨⟨before, front, same, ?_⟩, ?_⟩
        · exact fun later inside => others later (List.mem_append_left _ inside)
        · exact Ne.symm (others document (List.mem_append_right _ List.mem_cons_self))
  · -- The keys that are there came with earlier puts, and these stand where they stood.
    have stands : ∀ key ∈ documents.map Document.key,
        ((stored ++ [document]).map Document.key).idxOf key = (stored.map Document.key).idxOf key := by
      intro key inside
      rw [List.map_append, List.idxOf_append_of_mem ((records.mem_keys key).mp inside)]
    have still : (documents.map Document.key).Pairwise fun one other =>
        ((stored ++ [document]).map Document.key).idxOf one < ((stored ++ [document]).map Document.key).idxOf other := by
      refine records.ordered.imp_of_mem ?_
      intro one other first second before
      rwa [stands one first, stands other second]
    rw [keys]
    split
    · exact still
    next new =>
      refine List.pairwise_append.mpr ⟨still, List.pairwise_singleton .., ?_⟩
      rintro key inside _ (_ | ⟨_, ⟨⟩⟩)
      rw [stands key inside, List.map_append, List.idxOf_append_of_notMem (mt (records.mem_keys _).mpr new)]
      exact Nat.lt_add_right _ (List.idxOf_lt_length_of_mem ((records.mem_keys key).mp inside))

theorem eq_puts_or_order (history : List Call) :
    (∃ since : List Document, history = since.map .put) ∨
      ∃ before count, ∃ since : List Document, history = before ++ .failNext count :: since.map .put := by
  induction history with
  | nil => exact .inl ⟨[], rfl⟩
  | cons call rest ih =>
      rcases ih with ⟨since, rfl⟩ | ⟨before, count, since, rfl⟩
      · cases call with
        | put document => exact .inl ⟨document :: since, rfl⟩
        | failNext count => exact .inr ⟨[], count, since, rfl⟩
      · exact .inr ⟨call :: before, count, since, rfl⟩

theorem outage_put (store : MemoryStore) (id : String) (type : DocumentType) (bytes : Bytes) :
    (store.put id type bytes).2.outage.toNat = store.outage.toNat - 1 := by
  unfold put
  dsimp only
  split
  next out => exact UInt32.toNat_sub_of_le _ _ (UInt32.lt_iff_toNat_lt.mp out)
  next fine =>
    have none : store.outage.toNat = 0 := Nat.eq_zero_of_not_pos fun positive => fine (UInt32.lt_iff_toNat_lt.mpr positive)
    simp [none]

theorem outage_puts (since : List Document) (store : MemoryStore) :
    ((since.map .put).foldl act store).outage.toNat = store.outage.toNat - since.length := by
  induction since generalizing store with
  | nil => rfl
  | cons document since ih =>
      rw [List.map_cons, List.foldl_cons, ih, act, outage_put, List.length_cons]
      omega

theorem outage_pos_iff (history : List Call) : 0 < (after history).outage ↔ IsOut history := by
  have ordered : ∀ before count (since : List Document),
      (after (before ++ .failNext count :: since.map .put)).outage.toNat = count.toNat - since.length := by
    intro before count since
    rw [after, List.foldl_append, List.foldl_cons, outage_puts]
    rfl
  rw [UInt32.lt_iff_toNat_lt]
  constructor
  · intro out
    rcases eq_puts_or_order history with ⟨since, rfl⟩ | ⟨before, count, since, rfl⟩
    · rw [after, outage_puts] at out
      exact absurd out (Nat.not_lt_of_le (Nat.sub_le ..))
    · rw [ordered] at out
      exact ⟨before, count, since, rfl, Nat.lt_of_sub_pos out⟩
  · rintro ⟨before, count, since, rfl, fewer⟩
    rw [ordered]
    exact Nat.sub_pos_of_lt fewer

instance (history : List Call) : Decidable (IsOut history) :=
  decidable_of_iff _ (outage_pos_iff history)

def takenAfter (past : List Call) : List Call → List Document
  | [] => []
  | .failNext count :: rest => takenAfter (past ++ [.failNext count]) rest
  | .put document :: rest =>
    if IsOut past then takenAfter (past ++ [.put document]) rest
    else document :: takenAfter (past ++ [.put document]) rest

/-- The puts of a history that no outage stopped. -/
def taken (history : List Call) : List Document :=
  takenAfter [] history

theorem takenAfter_append (past calls more : List Call) :
    takenAfter past (calls ++ more) = takenAfter past calls ++ takenAfter (past ++ calls) more := by
  induction calls generalizing past with
  | nil => simp [takenAfter]
  | cons call calls ih =>
      have behind : past ++ call :: calls = (past ++ [call]) ++ calls := by simp
      rw [behind]
      cases call with
      | failNext count => exact ih _
      | put document =>
          simp only [List.cons_append, takenAfter, ih]
          split <;> rfl

theorem taken_append_singleton (history : List Call) (call : Call) :
    taken (history ++ [call]) = taken history ++ takenAfter history [call] :=
  takenAfter_append [] history [call]

theorem put_after (history : List Call) (document : Document) :
    (after history).put document.id document.type document.bytes =
      if IsOut history then
        (.error (.unavailable document.id),
          { after history with attempts := (after history).attempts + 1, outage := (after history).outage - 1 })
      else (.ok (), { after history with
        attempts := (after history).attempts + 1, documents := place document (after history).documents }) := by
  unfold put
  simp only [gt_iff_lt, outage_pos_iff]

theorem attempts_after (history : List Call) : (after history).attempts = UInt32.ofNat (puts history).length := by
  induction history using List.reverseRecOn with
  | nil => rfl
  | append_singleton history call ih =>
      rw [after_append_singleton, puts, List.filterMap_append, List.length_append, ← puts, UInt32.ofNat_add, ← ih]
      cases call with
      | failNext count => exact (UInt32.add_zero _).symm
      | put document =>
          rw [act, put_after]
          split <;> rfl

theorem records_after (history : List Call) : Records (taken history) (after history).documents := by
  induction history using List.reverseRecOn with
  | nil => exact .nil
  | append_singleton history call ih =>
      rw [after_append_singleton, taken_append_singleton]
      cases call with
      | failNext count =>
          rw [takenAfter, takenAfter, List.append_nil]
          exact ih
      | put document =>
          rw [act, put_after, takenAfter, takenAfter]
          split
          · rw [List.append_nil]
            exact ih
          · exact ih.place document

theorem Records.unique {other : List Document} (one : Records stored documents) (two : Records stored other) :
    documents = other := by
  have distinct : ∀ {documents}, Records stored documents → documents.Nodup := fun records => List.Nodup.of_map _ records.once
  have sorted : ∀ {documents}, Records stored documents → documents.Pairwise fun first second =>
      (stored.map Document.key).idxOf first.key < (stored.map Document.key).idxOf second.key := by
    intro documents records
    have ordered := records.ordered
    rwa [List.pairwise_map] at ordered
  refine List.Perm.eq_of_pairwise ?_ (sorted one) (sorted two) ?_
  · intro first second _ _ before behind
    exact absurd before (Nat.lt_asymm behind)
  · exact (List.perm_ext_iff_of_nodup (distinct one) (distinct two)).mpr fun document =>
      (one.last document).trans (two.last document).symm

/-- A put fails as long as fewer puts have come since the last order to fail than it asked for, and then changes no
object. All puts are counted, in 32 bits. The objects are those that remain of the puts that were taken: each key once, with
what came last for it, in the order in which the keys came first. What a store has of a type is what its objects of the type
hold, in this order. -/
theorem store_records_what_it_takes (history : List Call) :
    (∀ document : Document, ((after history).put document.id document.type document.bytes).1 =
        if IsOut history then .error (.unavailable document.id) else .ok ()) ∧
      (∀ document, IsOut history → (after (history ++ [.put document])).documents = (after history).documents) ∧
      (after history).attempts = UInt32.ofNat (puts history).length ∧
      (∀ documents, Records (taken history) documents ↔ documents = (after history).documents) ∧
      ∀ type, (after history).contents type =
        (((after history).documents.filter fun document => document.type = type).map (·.bytes)).flatten := by
  refine ⟨?_, ?_, attempts_after history, ?_, ?_⟩
  · intro document
    rw [put_after]
    split <;> rfl
  · intro document out
    rw [after_append_singleton, act, put_after, if_pos out]
  · intro documents
    constructor
    · exact fun records => records.unique (records_after history)
    · rintro rfl
      exact records_after history
  · intro type
    rw [contents, List.flatMap_def]
    rfl

example : (after [.failNext 2, .put ⟨"a", .jobLogs, [1]⟩, .put ⟨"a", .jobLogs, [2]⟩, .put ⟨"a", .jobLogs, [3]⟩,
    .put ⟨"b", .jobLogs, [4]⟩, .put ⟨"a", .jobLogs, [5]⟩]).documents = [⟨"a", .jobLogs, [5]⟩, ⟨"b", .jobLogs, [4]⟩] := by
  decide

end MemoryStore

end KeyedLog
