-- The law of directories: a directory that is loaded adds one definition for each of its JSON
-- files. A load that fails stops at the first file with a fault, and what the files before it
-- declare stays registered, so it leaves the registry as it was only if that file is the first.
import Mathlib
import KeyAccess.Proofs.Document.RoundTrip
import KeyAccess.Proofs.Registry.Additions

namespace KeyAccess

namespace Registry

variable {r : Registry} {tree : FileTree} {path : String}

/-! ## Files one after the other -/

theorem loadFiles_cons_of_ok {entity : String} (paths : List String)
    (h : (r.loadFile tree path).outcome = .ok entity) :
    (r.loadFiles tree (path :: paths)).registry =
        ((r.loadFile tree path).registry.loadFiles tree paths).registry ∧
      (r.loadFiles tree (path :: paths)).outcome =
        ((r.loadFile tree path).registry.loadFiles tree paths).outcome := by
  simp only [loadFiles, h, and_self]

theorem loadFiles_cons_of_error {e : SchemaError} (paths : List String)
    (h : (r.loadFile tree path).outcome = .error e) :
    (r.loadFiles tree (path :: paths)).registry = (r.loadFile tree path).registry ∧
      (r.loadFiles tree (path :: paths)).outcome = .error e := by
  simp only [loadFiles, h, and_self]

/-- Files that are all loaded add a definition each. -/
theorem added_loadFiles {paths : List String} (h : (r.loadFiles tree paths).outcome = .ok ()) :
    ∃ added, Added r added (r.loadFiles tree paths).registry ∧ added.length = paths.length := by
  induction paths generalizing r with
  | nil => exact ⟨[], .nothing r, rfl⟩
  | cons path paths ih =>
    rcases r.loadFile_cases tree path with ⟨d, hfirst, hok⟩ | ⟨-, e, herror⟩
    · obtain ⟨hregistry, houtcome⟩ := loadFiles_cons_of_ok paths hok
      obtain ⟨added, hrest, hlength⟩ := ih (houtcome ▸ h)
      exact ⟨d :: added, hregistry ▸ hfirst.append hrest, by simp [hlength]⟩
    · rw [(loadFiles_cons_of_error paths herror).2] at h
      cases h

/-- Files of which one is not loaded add a definition for each file before the first such file. -/
theorem added_loadFiles_of_error {paths : List String} {e : SchemaError}
    (h : (r.loadFiles tree paths).outcome = .error e) :
    ∃ before file after added, paths = before ++ file :: after ∧
      Added r added (r.loadFiles tree paths).registry ∧ added.length = before.length ∧
      ((r.loadFiles tree paths).registry.loadFile tree file).outcome = .error e := by
  induction paths generalizing r with
  | nil => cases h
  | cons path paths ih =>
    rcases r.loadFile_cases tree path with ⟨d, hfirst, hok⟩ | ⟨hsame, e', herror⟩
    · obtain ⟨hregistry, houtcome⟩ := loadFiles_cons_of_ok paths hok
      obtain ⟨before, file, after, added, hpaths, hrest, hlength, hfile⟩ := ih (houtcome ▸ h)
      refine ⟨path :: before, file, after, d :: added, by simp [hpaths], ?_, by simp [hlength], ?_⟩
      · exact hregistry ▸ hfirst.append hrest
      · rw [hregistry, hfile]
    · obtain ⟨hregistry, houtcome⟩ := loadFiles_cons_of_error paths herror
      rw [hregistry, hsame]
      rw [houtcome] at h
      cases h
      exact ⟨[], path, paths, [], rfl, .nothing r, rfl, herror⟩

/-! ## Directories -/

/-- The paths of the JSON files in a directory, in the order of their names. -/
def jsonFiles (tree : FileTree) (directory : String) : Except ReadFault (List String) := do
  let names ← (← tree.entries directory).mapM id
  return (sortedDistinct (names.filter isJsonName)).map (entryPath directory)

theorem loadDirectory_of_fault {entries : List (Except ReadFault String)} {fault : ReadFault}
    (hentries : tree.entries path = .ok entries) (hfault : entries.mapM id = .error fault) :
    r.loadDirectory tree path =
      ⟨r, [], .error (.malformed path ("Failed to read directory entry: " ++ fault.message))⟩ := by
  simp only [loadDirectory, hentries, hfault]

theorem loadDirectory_of_unreadable {fault : ReadFault} (h : jsonFiles tree path = .error fault) :
    (r.loadDirectory tree path).registry = r ∧
      ∃ e, (r.loadDirectory tree path).outcome = .error e := by
  rcases bind_eq_error_iff.1 h with hentries | ⟨entries, hentries, h⟩
  · unfold loadDirectory
    rw [hentries]
    exact ⟨rfl, _, rfl⟩
  · rcases bind_eq_error_iff.1 h with hfault | ⟨names, -, h⟩
    · rw [loadDirectory_of_fault hentries hfault]
      exact ⟨rfl, _, rfl⟩
    · cases h

theorem loadDirectory_of_readable {paths : List String} (h : jsonFiles tree path = .ok paths) :
    (r.loadDirectory tree path).registry = (r.loadFiles tree paths).registry ∧
      (r.loadDirectory tree path).outcome =
        (r.loadFiles tree paths).outcome.map fun _ => paths.length := by
  obtain ⟨entries, hentries, h⟩ := bind_eq_ok_iff.1 h
  obtain ⟨names, hnames, h⟩ := bind_eq_ok_iff.1 h
  cases h
  unfold loadDirectory
  rw [hentries]
  dsimp only
  rw [hnames]
  exact ⟨rfl, rfl⟩

/-- A node in a directory is an entry of its listing. -/
theorem mem_entries_of_node {place : List String} {name : String} {node : FileNode}
    (hplace : tree.lookup path = .ok (place, .directory))
    (hnode : (place ++ [name], node) ∈ tree.nodes) :
    ∃ entries, tree.entries path = .ok entries ∧ FileTree.entry name node ∈ entries := by
  unfold FileTree.entries
  rw [hplace, ok_bind]
  refine ⟨_, rfl, List.mem_filterMap.2 ⟨_, hnode, ?_⟩⟩
  simp only [List.getLast?_concat, List.dropLast_concat, if_true]

/-- A directory with a damaged node in it is not loaded at all, whatever its files hold: the fault
of an entry is found before the first file is read. -/
theorem loadDirectory_of_damaged {place : List String} {name reason : String}
    (hplace : tree.lookup path = .ok (place, .directory))
    (hnode : (place ++ [name], .damaged reason) ∈ tree.nodes) :
    (r.loadDirectory tree path).registry = r ∧
      ∃ entries fault, tree.entries path = .ok entries ∧ .error fault ∈ entries ∧
        (r.loadDirectory tree path).outcome =
          .error (.malformed path ("Failed to read directory entry: " ++ fault.message)) := by
  obtain ⟨entries, hentries, hmem⟩ := mem_entries_of_node hplace hnode
  cases hnames : entries.mapM id with
  | ok names =>
    obtain ⟨name, hname⟩ := exists_mapM_eq_ok_iff.1 ⟨names, hnames⟩ _ hmem
    cases hname
  | error fault =>
    obtain ⟨entry, hentry, hfault⟩ := mapM_eq_error hnames
    cases hfault
    rw [loadDirectory_of_fault hentries hnames]
    exact ⟨rfl, entries, fault, hentries, hentry, rfl⟩

example : (loadDirectory {} ⟨[(["lost"], .directory), (["lost", "a.json"], .damaged "gone")]⟩
    "lost").outcome = .error (.malformed "lost" "Failed to read directory entry: gone") := by
  decide +kernel

/-! ## Two directories -/

/-- A file that declares an entity with the partition key `id`. -/
def declaring (entity : String) : FileNode :=
  .file (Json.render (EntityDescriptor.tokens { entity, partitionKey := some "id" })).toUTF8

/-- A directory with two descriptors, and one with a descriptor and a file that is none. -/
def folders : FileTree where
  nodes := [(["whole"], .directory), (["whole", "a.json"], declaring "Note"),
    (["whole", "b.json"], declaring "User"), (["torn"], .directory),
    (["torn", "a.json"], declaring "Note"), (["torn", "b.json"], .file "\x7b".toUTF8)]

theorem loadFile_declaring {entity : String} {place : List String}
    (h : tree.lookup path = .ok (place, declaring entity)) (hfresh : r.get? entity = none) :
    (r.loadFile tree path).outcome = .ok entity ∧
      ∃ d, d.schema.entity = entity ∧ Added r [d] (r.loadFile tree path).registry := by
  obtain ⟨d, hd⟩ :
      ∃ d, EntityDescriptor.toDefinition { entity, partitionKey := some "id" } = .ok d :=
    ⟨_, rfl⟩
  rw [loadFile_of_lookup h]
  obtain ⟨houtcome, hadded⟩ := loadText_render path hfresh hd
  exact ⟨houtcome, d, EntityDescriptor.entity_of_toDefinition hd, hadded⟩

theorem whole_folder_loads : (loadDirectory {} folders "whole").outcome = .ok 2 := by
  have hfiles : jsonFiles folders "whole" = .ok ["whole/a.json", "whole/b.json"] := by
    decide +kernel
  have ha : folders.lookup "whole/a.json" = .ok (["whole", "a.json"], declaring "Note") := rfl
  have hb : folders.lookup "whole/b.json" = .ok (["whole", "b.json"], declaring "User") := rfl
  obtain ⟨hnote, d, hd, hadded⟩ := @loadFile_declaring {} _ _ _ _ ha rfl
  have hfresh : (loadFile {} folders "whole/a.json").registry.get? "User" = none := by
    rw [hadded.get?, List.find?_singleton, hd]
    rfl
  obtain ⟨huser, -⟩ := loadFile_declaring hb hfresh
  rw [(loadDirectory_of_readable hfiles).2, (loadFiles_cons_of_ok _ hnote).2,
    (loadFiles_cons_of_ok _ huser).2]
  rfl

theorem torn_folder_fails :
    (loadDirectory {} folders "torn").outcome =
        .error (.malformed "torn/b.json" "Invalid JSON: <syntax>") ∧
      ∃ d, (loadDirectory {} folders "torn").registry.get? "Note" = some d := by
  have hfiles : jsonFiles folders "torn" = .ok ["torn/a.json", "torn/b.json"] := by
    decide +kernel
  have ha : folders.lookup "torn/a.json" = .ok (["torn", "a.json"], declaring "Note") := rfl
  have hb : folders.lookup "torn/b.json" = .ok (["torn", "b.json"], .file "\x7b".toUTF8) := rfl
  obtain ⟨hnote, d, hd, hadded⟩ := @loadFile_declaring {} _ _ _ _ ha rfl
  have hfault : definitionOf "torn/b.json" "\x7b" =
      .error (.malformed "torn/b.json" "Invalid JSON: <syntax>") := by
    decide +kernel
  have hlast (r : Registry) : (r.loadFile folders "torn/b.json").registry = r ∧
      (r.loadFile folders "torn/b.json").outcome =
        .error (.malformed "torn/b.json" "Invalid JSON: <syntax>") := by
    rw [loadFile_of_lookup hb, loadText, hfault]
    exact ⟨rfl, rfl⟩
  have hheld := hadded.holds (List.mem_singleton.2 rfl)
  rw [hd] at hheld
  obtain ⟨hsame, herror⟩ := hlast (loadFile {} folders "torn/a.json").registry
  obtain ⟨hregistry, houtcome⟩ := loadDirectory_of_readable (r := {}) hfiles
  obtain ⟨hfirst, houtcome₁⟩ := loadFiles_cons_of_ok ["torn/b.json"] hnote
  obtain ⟨hsecond, houtcome₂⟩ := loadFiles_cons_of_error [] herror
  rw [hregistry, houtcome, hfirst, houtcome₁, hsecond, houtcome₂, hsame]
  exact ⟨rfl, d, hheld⟩

/-! ## The law -/

/-- A load of a directory that succeeds adds as many definitions as it says, one for each JSON file.
A load that fails adds those of the files before the first one with a fault: none if the directory
or one of its entries cannot be read or if that file is the first, and only then is the registry
what it was. -/
theorem a_directory_is_loaded_up_to_its_first_fault (r : Registry) (tree : FileTree)
    (path : String) :
    (∀ n, (r.loadDirectory tree path).outcome = .ok n →
      ∃ added, Added r added (r.loadDirectory tree path).registry ∧ added.length = n ∧
        ∃ paths, jsonFiles tree path = .ok paths ∧ paths.length = n) ∧
    ∀ e, (r.loadDirectory tree path).outcome = .error e →
      ((∃ fault, jsonFiles tree path = .error fault) ∧
        (r.loadDirectory tree path).registry = r) ∨
      ∃ before file after added, jsonFiles tree path = .ok (before ++ file :: after) ∧
        ((r.loadDirectory tree path).registry.loadFile tree file).outcome = .error e ∧
        Added r added (r.loadDirectory tree path).registry ∧ added.length = before.length ∧
        ((r.loadDirectory tree path).registry = r ↔ before = []) := by
  cases hfiles : jsonFiles tree path with
  | error fault =>
    obtain ⟨hsame, e, herror⟩ := loadDirectory_of_unreadable (r := r) hfiles
    refine ⟨fun n hn => ?_, fun _ _ => Or.inl ⟨⟨fault, rfl⟩, hsame⟩⟩
    rw [herror] at hn
    cases hn
  | ok paths =>
    obtain ⟨hregistry, houtcome⟩ := loadDirectory_of_readable (r := r) hfiles
    rw [hregistry, houtcome]
    cases hload : (r.loadFiles tree paths).outcome with
    | ok _ =>
      refine ⟨fun n hn => ?_, nofun⟩
      cases hn
      obtain ⟨added, hadded, hlength⟩ := added_loadFiles hload
      exact ⟨added, hadded, hlength, paths, rfl, rfl⟩
    | error e =>
      refine ⟨nofun, fun e' he => Or.inr ?_⟩
      cases he
      obtain ⟨before, file, after, added, rfl, hadded, hlength, hfile⟩ :=
        added_loadFiles_of_error hload
      refine ⟨before, file, after, added, rfl, hfile, hadded, hlength, ?_⟩
      rw [hadded.eq_nothing_iff, ← List.length_eq_zero_iff, hlength, List.length_eq_zero_iff]

theorem folders_are_loaded :
    (∃ added, Added {} added (loadDirectory {} folders "whole").registry ∧ added.length = 2) ∧
      ∃ before file after added,
        jsonFiles folders "torn" = .ok (before ++ file :: after) ∧
        ((loadDirectory {} folders "torn").registry.loadFile folders file).outcome =
          .error (.malformed "torn/b.json" "Invalid JSON: <syntax>") ∧
        Added {} added (loadDirectory {} folders "torn").registry ∧
        added.length = before.length := by
  have hfiles : jsonFiles folders "torn" = .ok ["torn/a.json", "torn/b.json"] := by
    decide +kernel
  constructor
  · obtain ⟨added, hadded, hlength, -⟩ :=
      (a_directory_is_loaded_up_to_its_first_fault {} folders "whole").1 2 whole_folder_loads
    exact ⟨added, hadded, hlength⟩
  · rcases (a_directory_is_loaded_up_to_its_first_fault {} folders "torn").2 _
      torn_folder_fails.1 with
      ⟨⟨fault, hfault⟩, -⟩ | ⟨before, file, after, added, hpaths, hfile, hadded, hlength, -⟩
    · rw [hfiles] at hfault
      cases hfault
    · exact ⟨before, file, after, added, hpaths, hfile, hadded, hlength⟩

/-- The load of the second directory fails, and still an entity is registered after it. -/
theorem a_failed_load_keeps_what_it_registered :
    ¬ ∀ e, (loadDirectory {} folders "torn").outcome = .error e →
      (loadDirectory {} folders "torn").registry = {} := by
  intro hsame
  obtain ⟨htorn, d, hheld⟩ := torn_folder_fails
  rw [hsame _ htorn] at hheld
  cases hheld

end Registry

end KeyAccess
