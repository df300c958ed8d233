import KeyedLog.Proofs.Sink.Refinement

/-!
The files of a key whose directory has the name of the key. Two sinks that wrote the same to the file in such a
directory leave the same in it, and what happens in the directory of one key changes nothing in that of another.
-/

namespace KeyedLog

open FileTree

structure Path.IsEntry (name : String) : Prop where
  named : Path.IsName name.toList
  short : (Utf8.encodeChars name.toList).length ≤ maxNameLength

namespace Path

variable {directory name : List Char}

theorem IsName.busy (named : IsName name) : isIdle name = false := by
  simp [isIdle, named.nonempty, named.ordinary]

theorem lead_of_notMem (named : IsName directory) : lead directory = directory ++ ['/'] := by
  unfold lead
  split
  next nothing => exact absurd (List.getLast?_eq_none_iff.mp nothing) named.nonempty
  next last final =>
    have different : last ≠ '/' := by
      rintro rfl
      exact named.whole (List.mem_of_getLast? final)
    rw [if_neg different]

theorem cut_names (above : IsName directory) (named : IsName name) :
    cut (lead directory ++ name) = ⟨.none, [directory, name]⟩ := by
  have pieces : Text.split '/' (directory ++ '/' :: name) = [directory, name] := by
    rw [Text.split_append_separator, Text.split_of_notMem above.whole, Text.split_of_notMem named.whole]
    rfl
  rw [lead_of_notMem above, List.append_assoc, List.singleton_append]
  have uncut : cutFully (directory ++ '/' :: name) = ⟨.none, [directory, name]⟩ := by
    unfold cutFully
    split
    next rest start =>
      cases directory with
      | nil => exact absurd rfl above.nonempty
      | cons first others =>
          cases start
          exact absurd (List.mem_cons_self ..) above.whole
    next start =>
      have length := congrArg List.length start
      have some := List.length_pos_iff.mpr above.nonempty
      simp only [List.length_append, List.length_cons, List.length_nil] at length
      omega
    next rest start =>
      cases directory with
      | nil => exact absurd rfl above.nonempty
      | cons first others =>
          cases others with
          | nil =>
              cases start
              exact absurd rfl above.ordinary
          | cons second others =>
              cases start
              exact absurd (List.mem_cons_of_mem _ (List.mem_cons_self ..)) above.whole
    next => rw [pieces]
  rw [cut, uncut, Parts.trim]
  simp [named.busy]

theorem parent?_names (above : IsName directory) (named : IsName name) :
    parent? (String.ofList (lead directory ++ name)) = some (String.ofList directory) := by
  simp [parent?, cut_names above named, Parts.parent?, Parts.trim, above.busy, Parts.chars, Front.chars, Text.join]

theorem fileName?_names (above : IsName directory) (named : IsName name) :
    fileName? (String.ofList (lead directory ++ name)) = some (String.ofList name) := by
  simp [fileName?, cut_names above named, Parts.fileName?, named.down]

theorem withFileName_names (above : IsName directory) (named : IsName name) {sibling : List Char}
    (whole : '/' ∉ sibling) :
    withFileName (String.ofList (lead directory ++ name)) (String.ofList sibling) =
      String.ofList (lead directory ++ sibling) := by
  simp only [withFileName, fileName?_names above named, parent?_names above named, Option.getD_some, join,
    String.toList_ofList, joinChars_of_notMem _ whole]

end Path

namespace Site

def ofKey (home : Location) (fileName key : String) : Site where
  path := Path.join key fileName
  parentPath := key.toList
  directory := home ++ [key]
  name := fileName.toList

variable {home : Location} {fileName key : String} {tree : FileTree}

theorem ofKey_path (file : Path.IsEntry fileName) :
    (ofKey home fileName key).path = String.ofList (Path.lead key.toList ++ fileName.toList) :=
  congrArg String.ofList (Path.joinChars_of_notMem key.toList file.named.whole)

theorem ofKey_isProper (entry : Path.IsEntry key) (file : Path.IsEntry fileName) :
    (ofKey home fileName key).IsProper := by
  have slots : ∀ number, Archive.slotPath (ofKey home fileName key).path number =
      String.ofList (Path.lead key.toList ++ Archive.slotName fileName.toList number) := by
    intro number
    rw [Archive.slotPath, ofKey_path file, Path.fileName?_names entry.named file.named, Option.getD_some,
      String.toList_ofList]
    exact Path.withFileName_names entry.named file.named (Archive.isName_slotName file.named number).whole
  refine ⟨file.named, ?_, slots, ?_⟩
  · rw [ofKey_path file]
    exact Path.parent?_names entry.named file.named
  · apply String.toList_inj.mp
    rw [Archive.stagingPath, slots 1]
    simp only [Archive.stagingName, ofKey, String.toList_append, String.toList_ofList, List.append_assoc]
    rfl

theorem ofKey_fits (entry : Path.IsEntry key) {sibling : List Char}
    (short : (Utf8.encodeChars sibling).length ≤ maxNameLength) : (ofKey home fileName key).Fits sibling := by
  refine ⟨?_, short⟩
  have slash : (Utf8.encodeChars ['/']).length = 1 := by decide
  have keyShort := entry.short
  show (Utf8.encodeChars (Path.lead key.toList ++ sibling)).length < maxPathLength
  rw [Path.lead_of_notMem entry.named, Utf8.encodeChars_append, Utf8.encodeChars_append, List.length_append,
    List.length_append]
  unfold maxNameLength at keyShort short
  unfold maxPathLength
  omega

theorem leads_home (tree : FileTree) : tree.Leads [] tree.workingDirectory :=
  ⟨by simp, by decide, rfl⟩

theorem names_key (entry : Path.IsEntry key) : tree.Names key tree.workingDirectory key := by
  have names := (leads_home tree).names entry.named (Nat.lt_of_le_of_lt entry.short (by decide)) entry.short
  rwa [show Path.lead [] ++ key.toList = key.toList from rfl, String.ofList_toList] at names

theorem leads_key (entry : Path.IsEntry key) (stands : tree.node? (tree.workingDirectory ++ [key]) = some .directory) :
    tree.Leads key.toList (tree.workingDirectory ++ [key]) := by
  refine ⟨entry.named.clean, Nat.lt_of_le_of_lt entry.short (by decide), ?_⟩
  have relative : ¬ key.toList.head? = some '/' := by
    intro start
    exact entry.named.whole (List.mem_of_head? start)
  rw [Path.steps_of_notMem entry.named.nonempty entry.named.whole, origin, if_neg relative]
  have names : tree.Names key tree.workingDirectory key := names_key entry
  have next := names.step
  simp only [List.map_cons, List.map_nil, String.ofList_toList, follow, bind, Except.bind, next, stands]

theorem ofKey_isIn (entry : Path.IsEntry key) (file : Path.IsEntry fileName) (sound : tree.IsSound)
    (stands : tree.node? (tree.workingDirectory ++ [key]) = some .directory) :
    (ofKey tree.workingDirectory fileName key).IsIn tree := by
  have leads := leads_key entry stands
  have fits : (ofKey tree.workingDirectory fileName key).Fits fileName.toList := ofKey_fits entry file.short
  have names := leads.names file.named fits.1 file.short
  refine ⟨sound, leads, ?_⟩
  rw [ofKey_path file]
  exact names

/-- Below the directory of the file nothing stands but what has to do with it. -/
def IsAlone (site : Site) (archives : Nat) (tree : FileTree) : Prop :=
  ∀ rest, rest ≠ [] → ¬ site.Owns archives (site.directory ++ rest) → tree.node? (site.directory ++ rest) = none

theorem IsAlone.leaves {site : Site} {archives : Nat} {before after : FileTree} (alone : site.IsAlone archives before)
    (leaves : site.Leaves archives before after) : site.IsAlone archives after := by
  intro rest deeper outside
  rw [leaves.others _ outside]
  exact alone rest deeper outside

theorem sight?_eq_of_holds {site : Site} {archives : Nat} {first second : FileTree} {current : Bytes}
    {slots : Nat → Option Bytes} (room : site.HasRoom archives) (one : site.Holds archives first current slots)
    (two : site.Holds archives second current slots) (firstAlone : site.IsAlone archives first)
    (secondAlone : site.IsAlone archives second) (rest : List String) :
    first.sight? (site.directory ++ rest) = second.sight? (site.directory ++ rest) := by
  by_cases here : rest = []
  · subst here
    rw [List.append_nil, sight?, sight?, one.stands.leads.stands one.stands.sound,
      two.stands.leads.stands two.stands.sound]
  · by_cases owned : site.Owns archives (site.directory ++ rest)
    · rcases owned with base | ⟨positive, staging⟩ | ⟨number, positive, bound, slot⟩
      · rw [base, one.base, two.base]
      · have fits := (room positive).1
        rw [staging, sight?, sight?, one.staging fits, two.staging fits]
      · have fits := (room (by omega)).2.mono (Archive.length_slotName_mono site.name bound)
        rw [slot, one.slots number positive bound fits, two.slots number positive bound fits]
    · rw [sight?, sight?, firstAlone rest here owned, secondAlone rest here owned]

theorem Owns.inside {site : Site} {archives : Nat} {location : Location} (owns : site.Owns archives location) :
    ∃ name, location = site.directory ++ [name] := by
  rcases owns with base | ⟨-, staging⟩ | ⟨number, -, -, slot⟩
  · exact ⟨_, base⟩
  · exact ⟨_, staging⟩
  · exact ⟨_, slot⟩

theorem Holds.frame {site : Site} {archives : Nat} {before after : FileTree} {current : Bytes}
    {slots : Nat → Option Bytes} (holds : site.Holds archives before current slots) (stands : site.IsIn after)
    (same : ∀ rest, after.node? (site.directory ++ rest) = before.node? (site.directory ++ rest)) :
    site.Holds archives after current slots := by
  refine ⟨stands, ?_, ?_, ?_⟩
  · exact (congrArg (Option.map FileNode.sight) (same _)).trans holds.base
  · intro number positive bound fits
    exact (congrArg (Option.map FileNode.sight) (same _)).trans (holds.slots number positive bound fits)
  · exact fun fits => (same _).trans (holds.staging fits)

end Site

namespace RotatingSink

variable {site : Site} {policy : RollingPolicy} {encode : Event → Bytes} {before : Nat → Option Bytes}
  {segments : Segments} {sink : RotatingSink} {tree after : FileTree} {fileName key : String}

theorem Follows.frame (follows : Follows site policy encode before segments sink tree) (stands : site.IsIn after)
    (same : ∀ rest, after.node? (site.directory ++ rest) = tree.node? (site.directory ++ rest)) :
    Follows site policy encode before segments sink after := by
  obtain ⟨id, handle, base⟩ := follows.serves.handle
  exact ⟨follows.rules, follows.encoder, follows.holds.frame stands same,
    ⟨follows.serves.path, follows.serves.running, follows.serves.size, id, handle, (same _).trans base⟩, follows.room⟩

theorem isIn_of_made (entry : Path.IsEntry key) (file : Path.IsEntry fileName) (sound : tree.IsSound)
    (free : tree.node? (tree.workingDirectory ++ [key]) = none) :
    (Site.ofKey tree.workingDirectory fileName key).IsIn (tree.attach (tree.workingDirectory ++ [key]) .directory) ∧
      ∀ rest, rest ≠ [] → (tree.attach (tree.workingDirectory ++ [key]) .directory).node?
        ((Site.ofKey tree.workingDirectory fileName key).directory ++ rest) = none := by
  have directory := sound.attach_directory sound.home free
  generalize tree.attach (tree.workingDirectory ++ [key]) .directory = between at directory
  constructor
  · have there : between.node? (between.workingDirectory ++ [key]) = some .directory := by
      rw [directory.nodes, directory.home, Function.update_self]
    have placed := Site.ofKey_isIn entry file directory.sound there
    rwa [directory.home] at placed
  · intro rest deeper
    have below := sound.none_below (show tree.node? (tree.workingDirectory ++ [key]) ≠ some .directory by simp [free]) deeper
    rw [show (Site.ofKey tree.workingDirectory fileName key).directory = tree.workingDirectory ++ [key] from rfl,
      directory.nodes, Function.update_of_ne (by simpa using deeper), below]

theorem openAt_of_none (entry : Path.IsEntry key) (file : Path.IsEntry fileName) (sound : tree.IsSound)
    (free : tree.node? (tree.workingDirectory ++ [key]) = none) (name : String) (policy : RollingPolicy)
    (encode : Event → Bytes) :
    ∃ fresh after, openAt name (Path.join key fileName) policy encode tree = .ok fresh after ∧
      Follows (.ofKey tree.workingDirectory fileName key) policy encode (fun _ => none) ⟨[], []⟩ fresh after ∧
      (Site.ofKey tree.workingDirectory fileName key).IsAlone policy.maxArchives after ∧
      after.workingDirectory = tree.workingDirectory ∧
      ∀ location, ¬ tree.workingDirectory ++ [key] <+: location → after.node? location = tree.node? location := by
  obtain ⟨site, shape⟩ : ∃ site, site = Site.ofKey tree.workingDirectory fileName key := ⟨_, rfl⟩
  have inside : site.directory = tree.workingDirectory ++ [key] := by rw [shape]; rfl
  have proper : site.IsProper := shape ▸ Site.ofKey_isProper entry file
  have path : site.path = Path.join key fileName := by rw [shape]; rfl
  have directory := sound.attach_directory sound.home free
  obtain ⟨between, drawn⟩ : ∃ between, between = tree.attach (tree.workingDirectory ++ [key]) .directory := ⟨_, rfl⟩
  rw [← drawn] at directory
  have made := isIn_of_made entry file sound free
  rw [← shape, ← drawn] at made
  obtain ⟨stands, empty⟩ := made
  have missing : between.node? site.base = none := empty _ (by simp)
  have became := directory.sound.attach_file (stands.leads.stands stands.sound) missing
  have opened := Files.openForWriting_new stands.names missing
  obtain ⟨after, final⟩ : ∃ after, after = { between.attach (site.directory ++ [String.ofList site.name])
      (.file between.nextId []) with nextId := between.nextId + 1 } := ⟨_, rfl⟩
  rw [← final] at became opened
  have nodes : after.node? = Function.update between.node? site.base (some (.file between.nextId [])) := became.nodes
  have above : Path.parent? site.path = some key := by
    rw [proper.parent, shape]
    exact congrArg some (String.ofList_toList ..)
  have touched : Files.touch site.path tree = .ok (⟨between.nextId⟩, 0) after := by
    rw [Files.touch_of_names above (Site.names_key entry) free, ← drawn]
    exact Files.at_of_ok opened _
  have kept : between.node? (site.directory ++ [String.ofList site.name]) ≠ some .directory := by
    rw [show site.directory ++ [String.ofList site.name] = site.base from rfl, missing]
    simp
  have standsAfter := stands.mono (became.keeps kept) became.sound
  rw [← path, ← shape]
  refine ⟨{ name, path := site.path, policy, encode, handle := some ⟨between.nextId⟩, size := 0 }, after, ?_, ?_, ?_, ?_,
    ?_⟩
  · exact openAt_eq_ok.mpr ⟨_, _, touched, rfl⟩
  · refine ⟨rfl, rfl, ⟨standsAfter, ?_, ?_, ?_⟩, ⟨rfl, rfl, rfl, between.nextId, rfl, ?_⟩, by simp⟩
    · rw [sight?, nodes, Function.update_self]
      rfl
    · intro number positive _ _
      rw [sight?, nodes, Function.update_of_ne (site.slot_ne_base number), Segments.slots_fresh _ _ positive]
      exact congrArg (Option.map FileNode.sight) (empty _ (by simp))
    · intro _
      rw [nodes, Function.update_of_ne site.staging_ne_base]
      exact empty _ (by simp)
    · rw [nodes, Function.update_self]
  · intro rest deeper outside
    rw [nodes, Function.update_of_ne fun same => outside (.inl same)]
    exact empty rest deeper
  · rw [became.home, directory.home]
  · intro location outside
    rw [nodes, Function.update_of_ne, directory.nodes, Function.update_of_ne]
    · rintro rfl
      exact outside List.prefix_rfl
    · rintro rfl
      exact outside (inside ▸ List.prefix_append ..)

theorem Follows.write_ok (proper : site.IsProper) (room : site.HasRoom policy.maxArchives)
    (follows : Follows site policy encode before segments sink tree) (event : Event) :
    ∃ last final, RotatingSink.write event (sink, tree) = .ok () (last, final) := by
  obtain ⟨rfl, rfl, holds, serves, -⟩ := follows
  obtain ⟨size, handle, after, written, -⟩ := RotatingSink.write_ok event proper holds serves fun _ => room
  exact ⟨_, _, written⟩

theorem Follows.writeAll_ok (proper : site.IsProper) (room : site.HasRoom policy.maxArchives) (events : List Event)
    (follows : Follows site policy encode before segments sink tree) :
    ∃ last final, RotatingSink.useAll (events.map .write) (sink, tree) = .ok () (last, final) := by
  induction events generalizing segments sink tree with
  | nil => exact ⟨sink, tree, rfl⟩
  | cons event rest ih =>
      obtain ⟨next, between, written⟩ := follows.write_ok proper room event
      obtain ⟨last, final, run⟩ := ih (follows.write proper written).1
      refine ⟨last, final, ?_⟩
      rw [List.map_cons, RotatingSink.useAll]
      exact (bind_of_ok written).trans run

end RotatingSink

end KeyedLog
