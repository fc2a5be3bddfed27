import MessageStore.Host.Environment
import MessageStore.Proofs.Host.TextFiles
import MessageStore.Proofs.Json.Values

/-!
# Saved configurations

A configuration is read as it has been written, from a text and from a file.  In
the configuration file it is in force whatever else the environment names, and
so is the failure to read that file: what the environment names counts only
where no such file is found.  In the directory for configurations the file is
found if it is there, unless the path of the directory is so long that the path
of the file is too long.
-/

namespace MessageStore

open Json (Blank Next Reads Spells Stops writeObject writeString)

/-! ## Written configurations -/

namespace Config

/-- The members that are written for a configuration. -/
def fields : Config → List (String × String)
  | file path => [("mode", "file"), ("path", path)]
  | memory => [("mode", "memory")]
  | discard => [("mode", "nop")]

variable (config : Config)

theorem write_eq :
    config.write = writeObject (config.fields.map fun field => (field.1, writeString field.2)) := by
  cases config <;> rfl

/-- The members that are written for a configuration stand for it. -/
theorem ofMembers_fields :
    ofMembers (config.fields.map fun field => (field.1, .string field.2)) = .ok config := by
  cases config <;> rfl

/-- What is written for a configuration is read as the configuration. -/
theorem spells_write : Spells read config.write config := by
  have spells := Json.spells_writeObject config.fields 126
  rw [← config.write_eq] at spells
  refine ⟨spells.begins, @fun before rest blank stops => ?_⟩
  have next : ∃ later, Next (before ++ (config.write ++ rest)) '\x7b' later := by
    rw [config.write_eq]
    exact ⟨_, Json.next_of_blank blank rfl⟩
  obtain ⟨_, _, found, -⟩ := next
  obtain ⟨left, value, same⟩ := (spells.reads blank stops).exists_left
  unfold Reads Json.outcome read
  rw [found]
  simp only [if_true, Json.greatestDepth, value, config.ofMembers_fields, Json.taken_ok, same]

theorem whole_write : Json.whole read (String.ofList config.write) = .ok config := by
  have read : Json.whole read (String.ofList ([] ++ (config.write ++ []))) = .ok config :=
    config.spells_write.whole Json.blank_nil Json.blank_nil
  rwa [List.append_nil, List.nil_append] at read

end Config

namespace Host

open Environment (configFile serviceName)

/-! ## Configurations that are read -/

section Reading

variable {files : FileTree} {path : List UInt8} {text : String} {config : Config}

theorem parseConfig_eq_ok_iff :
    parseConfig text = .ok config ↔ Json.whole Config.read text = .ok config := by
  rw [parseConfig, during_eq_ok_iff, mapError_eq_ok_iff]

/-- A configuration is read from a file exactly if the file holds a text that stands for it. -/
theorem readJson_eq_ok_iff :
    readJson Config.read files path = .ok config ↔
      ∃ text, files.HoldsText path text ∧ parseConfig text = .ok config := by
  unfold readJson
  rw [bind_eq_ok_iff]
  refine exists_congr fun text => ?_
  rw [during_eq_ok_iff, during_eq_ok_iff, mapError_eq_ok_iff, mapError_eq_ok_iff,
    FileTree.readText_eq_ok_iff, parseConfig_eq_ok_iff]

theorem FileTree.HoldsText.exists_eq (holds : files.HoldsText path text) :
    files.exists path = true := by
  obtain ⟨place, resolved, -⟩ := holds
  unfold FileTree.exists
  rw [resolved]
  rfl

end Reading

/-! ## The configuration in force -/

theorem fileName_configFile : Path.FileName (Text.encode configFile) :=
  Path.fileName_of_word rfl (by decide) (by decide) (by decide) (by decide) (by decide)

theorem fileName_serviceName : Path.FileName (Text.encode serviceName) :=
  Path.fileName_of_word rfl (by decide) (by decide) (by decide) (by decide) (by decide)

theorem length_configFile : (Text.encode configFile).length = 10 := by
  rw [Text.encode_eq]
  rfl

theorem length_serviceName : (Text.encode serviceName).length = 6 := by
  rw [Text.encode_eq]
  rfl

section InForce

variable {env : Environment} {files : FileTree}

/-- A configuration file that is found is read whatever file for messages the environment names. -/
theorem loadConfig_of_hasConfig (found : hasConfig env files configFile = true) :
    ∃ path, env.configPath? configFile = some path ∧
      ∀ cacheFile, loadConfig { env with cacheFile } files = readJson Config.read files path := by
  obtain ⟨path, named, -⟩ := (Option.any_eq_true _ _).mp found
  refine ⟨path, named, fun cacheFile => ?_⟩
  have again : hasConfig { env with cacheFile } files configFile = true := found
  have same : Environment.configPath? { env with cacheFile } configFile = some path := named
  rw [loadConfig, if_pos again, loadJson, same]

/-- Where no configuration file is found, what the environment names is in force. -/
theorem loadConfig_of_not_hasConfig (missing : hasConfig env files configFile = false) :
    loadConfig env files = .ok (env.config?.getD .memory) := by
  rw [loadConfig, missing]
  rfl

/-- In the directory for configurations the configuration file is found if it is there, unless its
path is too long. -/
theorem hasConfig_iff {path : List UInt8} {directory : Place}
    (named : env.configDirectory? = some path) (resolved : files.resolve path = .ok directory)
    (isDirectory : files.isDirectory directory = true) :
    hasConfig env files configFile = true ↔
      (Path.join path (Text.encode configFile)).length ≤ Path.longestPath ∧
        (files.node? (directory ++ [Text.encode configFile])).isSome = true := by
  rw [hasConfig, Environment.configPath?, named]
  exact FileTree.exists_join fileName_configFile resolved isDirectory

end InForce

/-- What has been written for a configuration is read as the configuration, from a text and from a
file, and is in force if it stands in the configuration file.  If that file is found, what it holds
is in force, or the failure to read it, whatever the environment names; and only if it is not found,
what the environment names is in force.  It is found if it is in the directory for configurations,
however the path of that directory is spelled, unless its own path is too long. -/
theorem saved_configuration_in_force (env : Environment) (files : FileTree) :
    (∀ config : Config,
      parseConfig (String.ofList config.write) = .ok config ∧
      ∀ path, files.HoldsText path (String.ofList config.write) →
        readJson Config.read files path = .ok config ∧
        (env.configPath? configFile = some path →
          ∀ cacheFile, loadConfig { env with cacheFile } files = .ok config)) ∧
    (hasConfig env files configFile = true →
      ∃ path, env.configPath? configFile = some path ∧
        ((∃ text config, files.HoldsText path text ∧ parseConfig text = .ok config ∧
          ∀ cacheFile, loadConfig { env with cacheFile } files = .ok config) ∨
        (∀ text config, files.HoldsText path text → parseConfig text ≠ .ok config) ∧
          ∃ error, ∀ cacheFile, loadConfig { env with cacheFile } files = .error error)) ∧
    (hasConfig env files configFile = false →
      loadConfig env files = .ok (env.config?.getD .memory)) ∧
    ∀ base directory, env.configDirectory? = some base → files.resolve base = .ok directory →
      files.isDirectory directory = true →
        ∃ path, env.configPath? configFile = some path ∧
          (hasConfig env files configFile = true ↔ path.length ≤ Path.longestPath ∧
            (files.node? (directory ++ [Text.encode configFile])).isSome = true) ∧
          ∀ text, files.HoldsText path text ↔ path.length ≤ Path.longestPath ∧
            files.node? (directory ++ [Text.encode configFile]) =
              some (.bytes (Text.encode text)) := by
  have parsed (config : Config) : parseConfig (String.ofList config.write) = .ok config :=
    parseConfig_eq_ok_iff.mpr config.whole_write
  refine ⟨fun config => ⟨parsed config, fun path holds => ?_⟩, fun found => ?_,
    loadConfig_of_not_hasConfig, fun base directory named resolved isDirectory => ?_⟩
  · have read : readJson Config.read files path = .ok config :=
      readJson_eq_ok_iff.mpr ⟨_, holds, parsed config⟩
    refine ⟨read, fun named cacheFile => ?_⟩
    have found : hasConfig env files configFile = true := by
      rw [hasConfig, named]
      exact holds.exists_eq
    obtain ⟨own, ownNamed, loaded⟩ := loadConfig_of_hasConfig found
    obtain rfl : own = path := Option.some.inj (ownNamed.symm.trans named)
    exact (loaded cacheFile).trans read
  · obtain ⟨path, named, loaded⟩ := loadConfig_of_hasConfig found
    refine ⟨path, named, ?_⟩
    simp only [loaded]
    cases read : readJson Config.read files path with
    | ok config =>
        obtain ⟨text, holds, parsed⟩ := readJson_eq_ok_iff.mp read
        exact .inl ⟨text, config, holds, parsed, fun _ => rfl⟩
    | error error =>
        refine .inr ⟨fun text config holds parsed => ?_, error, fun _ => rfl⟩
        rw [readJson_eq_ok_iff.mpr ⟨text, holds, parsed⟩] at read
        cases read
  · refine ⟨Path.join base (Text.encode configFile), ?_, hasConfig_iff named resolved isDirectory,
      fun text => FileTree.holdsText_join fileName_configFile resolved isDirectory⟩
    rw [Environment.configPath?, named]
    rfl

/-- A configuration that has been saved is in force although the environment names a file, whatever
its path has to be escaped for; a directory in the place of its file is a failure. -/
theorem saved_configuration_in_force_beside_name :
    let config : Config := .file "a \"b\"\n"
    let env : Environment := { configHome := some [Path.slash], cacheFile := some [0x78] }
    let directory : Place := [Text.encode serviceName]
    let tree (node : Node) : FileTree :=
      ⟨[(directory, .directory), (directory ++ [Text.encode configFile], node)], []⟩
    env.config? = some (.file "x") ∧
      loadConfig env (tree (.bytes (Text.encode (String.ofList config.write)))) = .ok config ∧
      ∃ error, loadConfig env (tree .directory) = .error error := by
  intro config env directory tree
  have nodes (node : Node) : (tree node).node? directory = some .directory ∧
      (tree node).node? (directory ++ [Text.encode configFile]) = some node := by
    simp [FileTree.node?, tree, directory, List.lookup_cons]
  have inside (node : Node) : (tree node).isDirectory directory = true := by
    rw [FileTree.isDirectory, (nodes node).1]
    rfl
  have short (base name : List UInt8) (fits : base.length + name.length + 1 ≤ Path.longestPath) :
      (Path.join base name).length ≤ Path.longestPath :=
    Nat.le_trans (Path.length_join_le base) fits
  have resolved (node : Node) :
      (tree node).resolve (Path.join [Path.slash] (Text.encode serviceName)) = .ok directory := by
    refine (FileTree.resolve_join_eq_ok_iff fileName_serviceName (FileTree.resolve_root _) rfl).mpr
      ⟨short _ _ (by rw [length_serviceName]; decide), ?_, rfl⟩
    exact (congrArg Option.isSome (nodes node).1).trans rfl
  have fits : (Path.join (Path.join [Path.slash] (Text.encode serviceName))
      (Text.encode configFile)).length ≤ Path.longestPath := by
    have length : (Path.join [Path.slash] (Text.encode serviceName)).length ≤ _ :=
      Path.length_join_le [Path.slash]
    refine short _ _ ?_
    rw [length_serviceName] at length
    rw [length_configFile]
    exact Nat.le_trans (Nat.add_le_add_right (Nat.add_le_add_right length _) _) (by decide)
  refine ⟨rfl, ?_, ?_⟩
  · obtain ⟨saved, -, -, located⟩ := saved_configuration_in_force env
      (tree (.bytes (Text.encode (String.ofList config.write))))
    obtain ⟨path, named, -, holds⟩ := located _ directory rfl (resolved _) (inside _)
    cases named
    exact ((saved config).2 _ ((holds _).mpr ⟨fits, (nodes _).2⟩)).2 rfl env.cacheFile
  · obtain ⟨-, held, -, located⟩ := saved_configuration_in_force env (tree .directory)
    obtain ⟨path, named, there, holds⟩ := located _ directory rfl (resolved _) (inside _)
    cases named
    rw [(nodes _).2] at there
    obtain ⟨_, ⟨⟩, ⟨text, _, holdsText, -⟩ | ⟨-, error, failed⟩⟩ := held (there.mpr ⟨fits, rfl⟩)
    · rw [holds, (nodes _).2] at holdsText
      cases holdsText.2
    · exact ⟨error, failed env.cacheFile⟩

/-- A directory for configurations whose path has been made long by lone dots holds a saved
configuration, but the path of its file is too long, and what the environment names is in force. -/
theorem saved_configuration_out_of_reach :
    let base := Path.slash :: Text.encode "cfg" ++ Path.idle 2041
    let env : Environment := { configHome := some base, cacheFile := some [0x78] }
    let directory : Place := [Text.encode "cfg", Text.encode serviceName]
    let file : Node := .bytes (Text.encode (String.ofList Config.discard.write))
    let files : FileTree :=
      ⟨[([Text.encode "cfg"], .directory), (directory, .directory),
        (directory ++ [Text.encode configFile], file)], []⟩
    (∃ path, env.configDirectory? = some path ∧ files.resolve path = .ok directory) ∧
      files.isDirectory directory = true ∧
      files.node? (directory ++ [Text.encode configFile]) = some file ∧
      hasConfig env files configFile = false ∧ loadConfig env files = .ok (.file "x") := by
  intro base env directory file files
  have named : Path.FileName (Text.encode "cfg") :=
    Path.fileName_of_word rfl (by decide) (by decide) (by decide) (by decide) (by decide)
  have lengthNamed : (Text.encode "cfg").length = 3 := by
    rw [Text.encode_eq]
    rfl
  have lengthBase : base.length = 4086 := by
    rw [List.length_append, List.length_cons, lengthNamed, Path.length_idle]
  have nodes : files.node? [Text.encode "cfg"] = some .directory ∧
      files.node? directory = some .directory ∧
        files.node? (directory ++ [Text.encode configFile]) = some file := by
    simp [FileTree.node?, files, directory, List.lookup_cons]
  have above : files.isDirectory [Text.encode "cfg"] = true := by
    rw [FileTree.isDirectory, nodes.1]
    rfl
  have inside : files.isDirectory directory = true := by
    rw [FileTree.isDirectory, nodes.2.1]
    rfl
  have found : files.resolve (Path.join [Path.slash] (Text.encode "cfg")) =
      .ok [Text.encode "cfg"] := by
    refine (FileTree.resolve_join_eq_ok_iff named (FileTree.resolve_root files) rfl).mpr
      ⟨Nat.le_trans (Path.length_join_le _) (by rw [lengthNamed]; decide), ?_, rfl⟩
    exact (congrArg Option.isSome nodes.1).trans rfl
  have spelled : files.resolve base = .ok [Text.encode "cfg"] := by
    have begins : Path.join [Path.slash] (Text.encode "cfg") = Path.slash :: Text.encode "cfg" := by
      rw [Path.join, named.relative]
      rfl
    rw [begins] at found
    refine FileTree.resolve_idle found above ?_
    rw [List.length_cons, lengthNamed]
    decide
  have resolved : files.resolve (Path.join base (Text.encode serviceName)) = .ok directory := by
    refine (FileTree.resolve_join_eq_ok_iff fileName_serviceName spelled above).mpr
      ⟨Nat.le_trans (Path.length_join_le _) (by rw [lengthBase, length_serviceName]; decide), ?_, rfl⟩
    exact (congrArg Option.isSome nodes.2.1).trans rfl
  have long : Path.longestPath < (Path.join (Path.join base (Text.encode serviceName))
      (Text.encode configFile)).length := by
    have first := Path.le_length_join base fileName_serviceName.relative
    have second := Path.le_length_join (Path.join base (Text.encode serviceName))
      fileName_configFile.relative
    rw [lengthBase, length_serviceName] at first
    rw [length_configFile] at second
    unfold Path.longestPath
    omega
  have configured : env.configDirectory? = some (Path.join base (Text.encode serviceName)) := rfl
  have missing : hasConfig env files configFile = false := by
    rw [← Bool.not_eq_true, hasConfig_iff configured resolved inside]
    exact fun there => Nat.not_le.mpr long there.1
  exact ⟨⟨_, configured, resolved⟩, inside, nodes.2.2, missing,
    loadConfig_of_not_hasConfig missing⟩

end Host

end MessageStore
