import PackageStaging.Config
import PackageStaging.Proofs.Json.Written
import PackageStaging.Proofs.Store.Readable

namespace PackageStaging

open Json (Member)

theorem GateStatus.reader_toJson (depth : Nat) (s : GateStatus) (rest : Json.Input) :
    reader depth (s.toJson.toList ++ rest) = .ok (s, rest) := by
  rw [reader, toJson, Json.stepsFor, Json.readValue_ofText]
  simp only [ofValue, ofName?_name]

namespace Config

open Json (ofText ofBool)

def optionalMember (key : String) (value : Option String) (set : Option String → Config → Config) :
    List (Member Config) :=
  value.toList.map fun s ↦ ⟨key, ofText s, set (some s)⟩

def members (c : Config) : List (Member Config) :=
  [⟨"status", c.status.toJson, fun d ↦ { d with status := c.status }⟩,
    ⟨"add-verb", ofText c.addVerb, fun d ↦ { d with addVerb := c.addVerb }⟩,
    ⟨"remove-verb", ofText c.removeVerb, fun d ↦ { d with removeVerb := c.removeVerb }⟩] ++
  optionalMember "pre-hook" c.preHook (fun preHook d ↦ { d with preHook }) ++
  optionalMember "post-hook" c.postHook (fun postHook d ↦ { d with postHook }) ++
  optionalMember "catalog-url" c.catalogUrl (fun catalogUrl d ↦ { d with catalogUrl }) ++
  [⟨"dry-run", ofBool c.dryRun, fun d ↦ { d with dryRun := c.dryRun }⟩] ++
  optionalMember "base-dir" (c.baseDirectory.map Path.text)
    (fun base d ↦ { d with baseDirectory := base.map Path.mk })

theorem map_optionalMember (key : String) (value : Option String)
    (set : Option String → Config → Config) :
    (optionalMember key value set).map (fun m ↦ (m.key, m.value)) =
      value.toList.map fun s ↦ (key, ofText s) := by
  rw [optionalMember, List.map_map]
  rfl

theorem toJson_eq (c : Config) :
    c.toJson = Json.ofMembers (c.members.map fun m ↦ (m.key, m.value)) := by
  simp only [toJson, members, List.map_append, map_optionalMember]
  rfl

theorem setAll_members (c : Config) : Member.setAll c.members {} = c := by
  rcases c with ⟨status, addVerb, removeVerb, preHook, postHook, catalogUrl, dryRun, base⟩
  cases preHook <;> cases postHook <;> cases catalogUrl <;> cases base <;> rfl

theorem nodup_keys_members (c : Config) : (c.members.map Member.key).Nodup := by
  rcases c with ⟨status, addVerb, removeVerb, preHook, postHook, catalogUrl, dryRun, base⟩
  cases preHook <;> cases postHook <;> cases catalogUrl <;> cases base <;>
    exact List.nodup_iff_pairwise_ne.2 (by simp [members, optionalMember])

theorem isTaken_string (key : String) (set : String → Config → Config)
    (hfind : fields.find? (·.key == key) = some (.string key set)) (s : String) :
    Member.IsTaken fields ⟨key, ofText s, set s⟩ := by
  refine ⟨_, hfind, fun rest ↦ ?_⟩
  simp only [Json.Field.string, Json.Reader.ofFault, Json.readString_ofText, Except.map,
    Except.mapError]

theorem isTaken_optional {key wanted : String} {set : Option String → Config → Config}
    (hfind : fields.find? (·.key == key) = some (.string? key set wanted)) (value : Option String) :
    ∀ m ∈ optionalMember key value set, m.IsTaken fields := by
  refine List.forall_mem_map.2 fun s _ ↦ ⟨_, hfind, fun rest ↦ ?_⟩
  simp only [Json.Field.string?, Json.Reader.ofFault, Json.readOption_ofText, Except.map,
    Except.mapError]

theorem isTaken_members (c : Config) : ∀ m ∈ c.members, m.IsTaken fields := by
  have hstatus : Member.IsTaken fields
      ⟨"status", c.status.toJson, fun d ↦ { d with status := c.status }⟩ := by
    refine ⟨_, rfl, fun rest ↦ ?_⟩
    simp only [GateStatus.reader_toJson, Except.map]
  have hdryRun : Member.IsTaken fields
      ⟨"dry-run", ofBool c.dryRun, fun d ↦ { d with dryRun := c.dryRun }⟩ := by
    refine ⟨.boolean "dry-run" fun dryRun d ↦ { d with dryRun }, rfl, fun rest ↦ ?_⟩
    simp only [Json.Field.boolean, Json.Reader.ofFault, Json.readBoolean_ofBool, Except.map,
      Except.mapError]
  intro m hm
  simp only [members, List.mem_append, List.mem_cons, List.not_mem_nil, or_false] at hm
  rcases hm with (((((rfl | rfl | rfl) | hm) | hm) | hm) | rfl) | hm
  · exact hstatus
  · exact isTaken_string "add-verb" (fun addVerb d ↦ { d with addVerb }) rfl c.addVerb
  · exact isTaken_string "remove-verb" (fun removeVerb d ↦ { d with removeVerb }) rfl c.removeVerb
  · exact isTaken_optional rfl _ m hm
  · exact isTaken_optional rfl _ m hm
  · exact isTaken_optional rfl _ m hm
  · exact hdryRun
  · exact isTaken_optional rfl _ m hm

theorem read_toJson (c : Config) : read c.toJson = .ok c := by
  rw [read, Json.document, Json.Reader.ofFault, toJson_eq,
    Json.readRecord_ofMembers _ _ c.isTaken_members c.nodup_keys_members, setAll_members]
  rfl

/-- The configuration that a path gives: that of the file there, or the default one. -/
def loadIn (t : FileTree) (path : Path) : Except StageError Config :=
  match t.stat? path with
  | none => .ok {}
  | some _ =>
    match t.text path with
    | .error e => .error (.configUnreadable path e)
    | .ok text => (read text).mapError (.configMalformed path)

theorem perform_load (w : World) (path : Path) :
    w.perform (load path) = (loadIn w.tree path, w) := by
  have hexists : w.perform (liftM (FileSystem.exists? path : Simulation Bool) :
      ExceptT StageError Simulation Bool) = (.ok (w.tree.stat? path).isSome, w) := rfl
  have hread : w.perform (liftM (FileSystem.readText path : Simulation (Except FileError String)) :
      ExceptT StageError Simulation _) = (.ok (w.tree.text path), w) := by
    rw [World.perform_lift, World.readText_run]
  rw [load, World.perform_bind_ok hexists, loadIn]
  cases w.tree.stat? path with
  | none => rfl
  | some node =>
    simp only [Option.isSome_some, if_true]
    rw [World.perform_bind_ok hread]
    cases w.tree.text path with
    | error e => rfl
    | ok text =>
      dsimp only
      cases read text <;> rfl

theorem loadIn_toJson {t : FileTree} {path : Path} {c : Config}
    (hfile : t.read path = .ok c.toJson.toUTF8) : loadIn t path = .ok c := by
  obtain ⟨mode, hstat⟩ := FileTree.stat?_of_read hfile
  rw [loadIn, hstat, FileTree.text_of_read hfile]
  dsimp only
  rw [read_toJson]
  rfl

/-- A configuration loads as it was written: whatever characters its texts hold, and with what is
not set left out. -/
theorem load_toJson {w : World} {path : Path} {c : Config}
    (hfile : w.tree.read path = .ok c.toJson.toUTF8) : w.perform (load path) = (.ok c, w) := by
  rw [perform_load, loadIn_toJson hfile]

def odd : Config where
  status := .requiresAgreement
  addVerb := "\"\\\x00\x1f\x7f\r\n\t"
  removeVerb := "été 😀"
  preHook := some ""
  catalogUrl := some "http://h/\x7bpackageName\x7d"
  dryRun := true
  baseDirectory := some ⟨"a \"b\"/"⟩

theorem load_toJson_odd :
    let file : Node := .file odd.toJson.toUTF8 FileTree.newFileMode
    let w : World := { World.bare with tree := World.bare.tree.put ["config.json"] file }
    w.tree.read ⟨"/config.json"⟩ = .ok odd.toJson.toUTF8 ∧
      w.perform (load ⟨"/config.json"⟩) = (.ok odd, w) := by
  intro file w
  have hread : w.tree.read ⟨"/config.json"⟩ = .ok odd.toJson.toUTF8 := rfl
  exact ⟨hread, load_toJson hread⟩

end Config

end PackageStaging
