import Memberwise.CommandLine.Run

/-!
# Memberwise.Proofs.Commands — what a command gives and leaves

A command is seen through three things: its result, the workspace that it leaves (`outcome`), and
the events on the way (`reported`). In a sequence, the second command starts from what the first one
leaves, unless the first one fails (`outcome_bind_ok`, `outcome_bind_error`).

Commands that only read leave the workspace as it is, and what they give depends on the files
alone (`outcome_describeFile`, `outcome_generateFile`).
-/

namespace Memberwise

section

variable {ε α β : Type} {x : ExceptT ε (StateT Workspace Traced) α}
  {f : α → ExceptT ε (StateT Workspace Traced) β} {w w' : Workspace}

/-- The result of a command on a workspace, and the workspace that it leaves. -/
def outcome (x : ExceptT ε (StateT Workspace Traced) α) (w : Workspace) : Except ε α × Workspace :=
  (x.run.run w).value

/-- The events of a command on a workspace. -/
def reported (x : ExceptT ε (StateT Workspace Traced) α) (w : Workspace) : List Event :=
  (x.run.run w).events

/-- A value that is given at once leaves the workspace. -/
@[simp] theorem outcome_pure (a : α) (w : Workspace) :
    outcome (pure a : ExceptT ε (StateT Workspace Traced) α) w = (.ok a, w) := rfl

/-- A failure leaves the workspace. -/
@[simp] theorem outcome_throw (e : ε) (w : Workspace) :
    outcome (throw e : ExceptT ε (StateT Workspace Traced) α) w = (.error e, w) := rfl

/-- After a success the next command goes on. -/
theorem outcome_bind_ok {a : α} (h : outcome x w = (.ok a, w')) :
    outcome (x >>= f) w = outcome (f a) w' := by
  change (ExceptT.bindCont f (outcome x w).1 (outcome x w).2).value = _
  rw [h]
  rfl

/-- After a failure nothing more is done. -/
theorem outcome_bind_error {e : ε} (h : outcome x w = (.error e, w')) :
    outcome (x >>= f) w = (.error e, w') := by
  change (ExceptT.bindCont f (outcome x w).1 (outcome x w).2).value = _
  rw [h]
  rfl

/-- After a success the reports of the next command follow. -/
theorem reported_bind_ok {a : α} (h : outcome x w = (.ok a, w')) :
    reported (x >>= f) w = reported x w ++ reported (f a) w' := by
  change reported x w ++ (ExceptT.bindCont f (outcome x w).1 (outcome x w).2).events = _
  rw [h]
  rfl

/-- What a sequence gives in the end, by what its first command gives. -/
theorem outcome_bind_eq_iff {r : Except ε β × Workspace} :
    outcome (x >>= f) w = r ↔
      (∃ a w', outcome x w = (.ok a, w') ∧ outcome (f a) w' = r) ∨
        ∃ e w', outcome x w = (.error e, w') ∧ (.error e, w') = r := by
  rcases hx : outcome x w with ⟨result, w'⟩
  cases result with
  | ok a => simp [outcome_bind_ok hx, and_assoc]
  | error e => simp [outcome_bind_error hx, and_assoc]

/-- Whether a command leaves the workspace as it is, also when it fails. -/
def KeepsWorkspace (x : ExceptT ε (StateT Workspace Traced) α) : Prop :=
  ∀ w, (outcome x w).2 = w

/-- A command that keeps the workspace is known by its result. -/
theorem KeepsWorkspace.outcome_eq (hx : KeepsWorkspace x) {r : Except ε α}
    (h : (outcome x w).1 = r) : outcome x w = (r, w) :=
  Prod.ext h (hx w)

/-- Commands that keep the workspace keep it one after the other. -/
theorem KeepsWorkspace.bind (hx : KeepsWorkspace x) (hf : ∀ a, KeepsWorkspace (f a)) :
    KeepsWorkspace (x >>= f) := by
  intro w
  have hw := hx w
  rcases hresult : outcome x w with ⟨result, w'⟩
  rw [hresult] at hw
  subst hw
  cases result with
  | ok a =>
    rw [outcome_bind_ok hresult]
    exact hf a w'
  | error e => rw [outcome_bind_error hresult]

end

open Command Source

/-- What holds of commands that only give a value, and of two commands in sequence if it holds of
both, holds of a list of commands one after another. -/
theorem mapM_of_bind {α β : Type} {Q : {γ : Type} → Command γ → Prop}
    (hpure : ∀ {γ : Type} (c : γ), Q (pure c))
    (hbind : ∀ {γ δ : Type} {x : Command γ} {f : γ → Command δ},
      Q x → (∀ c, Q (f c)) → Q (x >>= f))
    {xs : List α} {f : α → Command β} (hf : ∀ x ∈ xs, Q (f x)) : Q (xs.mapM f) := by
  induction xs with
  | nil => exact hpure []
  | cons x xs ih =>
    obtain ⟨hx, hxs⟩ := List.forall_mem_cons.mp hf
    rw [List.mapM_cons]
    refine hbind hx fun b => hbind (ih hxs) fun bs => ?_
    exact hpure (b :: bs)

/-! ## Commands that read -/

/-- What needs no workspace leaves it. -/
theorem outcome_ofOutcome {α : Type} (x : Outcome α) (w : Workspace) :
    outcome (ofOutcome x) w = (x.run.value, w) := rfl

/-- A line that is printed comes after those printed before. -/
theorem outcome_print (line : String) (w : Workspace) :
    outcome (print line) w = (.ok (), { w with printed := w.printed ++ [line] }) := rfl

/-- The text of a file, or the fault that it cannot be read. -/
def FileSystem.textOf (files : FileSystem) (path : String) : Except Fault String :=
  match files.read? path with
  | some text => .ok text
  | none => .error (.read path)

/-- Reading a file leaves the workspace. -/
theorem outcome_readFile (path : String) (w : Workspace) :
    outcome (readFile path) w = (w.files.textOf path, w) := by
  have hget : outcome (get : Command Workspace) w = (.ok w, w) := rfl
  rw [readFile, outcome_bind_ok hget, FileSystem.textOf]
  cases w.files.read? path <;> rfl

/-- What reading a file and going on without the files amounts to. -/
theorem outcome_readFile_bind {α : Type} (path : String) (f : String → Outcome α) (w : Workspace) :
    outcome (do ofOutcome (f (← readFile path))) w =
      ((w.files.textOf path).bind fun text => (f text).run.value, w) := by
  have hread := outcome_readFile path w
  cases htext : w.files.textOf path with
  | ok text =>
    rw [htext] at hread
    rw [outcome_bind_ok hread]
    rfl
  | error e =>
    rw [htext] at hread
    rw [outcome_bind_error hread]
    rfl

/-- A source is described once it is prepared. -/
theorem value_describeSource (c : Config) (source origin : String) :
    (describeSource c source origin).run.value =
      (prepare c source origin).map fun (root, items) => (describeItems c root items).value := by
  unfold describeSource
  cases prepare c source origin <;> rfl

/-- Artifacts are made of what a source is described as. -/
theorem value_generateSource (c : Config) (source origin : String) :
    (generateSource c source origin).run.value =
      (describeSource c source origin).run.value.map fun ds => (artifactsAfter c [] ds).value := by
  change Traced.value (ExceptT.bindCont _ (describeSource c source origin).run.value) = _
  cases (describeSource c source origin).run.value <;> rfl

/-- Settings can be used if each of them can. -/
theorem Config.validate_eq_ok_iff {c : Config} :
    c.validate = .ok () ↔
      (Scope.parse c.modulePath).isSome = true ∧ isAbsolutePath c.runtimeCrate = true ∧
        isArtifactSuffix c.artifactSuffix = true ∧ c.qualifyingAnnotations ≠ [] ∧
          ∀ a ∈ c.qualifyingAnnotations, isAbsolutePath a = true := by
  have hall : (∀ a ∈ c.qualifyingAnnotations, isAbsolutePath a = true) ↔
      c.qualifyingAnnotations.find? (fun path => !isAbsolutePath path) = none := by
    simp [List.find?_eq_none]
  rw [hall, ← List.isEmpty_eq_false_iff]
  -- The checks are made one after another, and the first that fails ends them.
  unfold Config.validate
  cases Scope.parse c.modulePath with
  | none => exact iff_of_false nofun (by simp)
  | some root =>
    cases isAbsolutePath c.runtimeCrate with
    | false => exact iff_of_false nofun (by simp)
    | true =>
      cases isArtifactSuffix c.artifactSuffix with
      | false => exact iff_of_false nofun (by simp)
      | true =>
        cases c.qualifyingAnnotations.isEmpty with
        | true => exact iff_of_false nofun (by simp)
        | false =>
          cases c.qualifyingAnnotations.find? fun path => !isAbsolutePath path with
          | some path => exact iff_of_false nofun (by simp)
          | none => exact iff_of_true rfl (by simp)

/-- Settings that can be used name the scope of the file. -/
theorem rootScope_of_validate {c : Config} (h : c.validate = .ok ()) :
    ∃ root, c.rootScope = .ok root := by
  obtain ⟨root, hroot⟩ := Option.isSome_iff_exists.mp (Config.validate_eq_ok_iff.mp h).1
  exact ⟨root, by rw [Config.rootScope, hroot]⟩

/-- The descriptors of a file, or why there are none. -/
def described (c : Config) (files : FileSystem) (path : String) : Except Fault (List Descriptor) :=
  (files.textOf path).bind fun source => (describeSource c source path).run.value

/-- Describing a file leaves the workspace. -/
theorem outcome_describeFile (c : Config) (path : String) (w : Workspace) :
    outcome (describeFile c path) w = (described c w.files path, w) :=
  outcome_readFile_bind path (describeSource c · path) w

/-- Making the artifacts of a file leaves the workspace. -/
theorem outcome_generateFile (c : Config) (path : String) (w : Workspace) :
    outcome (generateFile c path) w =
      ((described c w.files path).map fun ds => (artifactsAfter c [] ds).value, w) := by
  refine (outcome_readFile_bind path (generateSource c · path) w).trans ?_
  simp only [described, value_generateSource]
  cases w.files.textOf path <;> rfl

/-- With settings that cannot be used nothing is prepared. -/
theorem prepare_of_invalid {c : Config} {fault : ConfigFault} (h : c.validate = .error fault)
    (source origin : String) : prepare c source origin = .error (.config fault) := by
  unfold prepare
  rw [h]
  rfl

/-- With settings that can be used a source is prepared exactly if it is read. -/
theorem prepare_of_valid {c : Config} (h : c.validate = .ok ()) (source origin : String) :
    ∃ root, prepare c source origin =
      match parseFile source with
      | some items => .ok (root, items)
      | none => .error (.parse origin) := by
  rcases rootScope_of_validate h with ⟨root, hroot⟩
  refine ⟨root, ?_⟩
  unfold prepare
  rw [h, hroot]
  cases parseFile source <;> rfl

/-- A source that is in order parses. -/
theorem parseFile_of_prepare {c : Config} {source origin : String} {root : Scope}
    {items : List Item} (h : prepare c source origin = .ok (root, items)) :
    parseFile source = some items := by
  -- Preparing fails first on the configuration and then on the text.
  cases hvalid : c.validate with
  | error fault =>
    rw [prepare_of_invalid hvalid] at h
    cases h
  | ok _ =>
    obtain ⟨root', hprepare⟩ := prepare_of_valid hvalid source origin
    rw [hprepare] at h
    split at h
    · next hparse =>
      cases h
      exact hparse
    · cases h

/-- A source that is not described has settings that cannot be used, or does not parse. -/
theorem prepare_error_iff {c : Config} {source origin : String} {f : Fault} :
    prepare c source origin = .error f ↔
      (∃ fault, c.validate = .error fault ∧ .config fault = f) ∨
        c.validate = .ok () ∧ parseFile source = none ∧ .parse origin = f := by
  cases hvalid : c.validate with
  | error fault =>
    rw [prepare_of_invalid hvalid]
    simp
  | ok _ =>
    rcases prepare_of_valid hvalid source origin with ⟨root, hprepare⟩
    rw [hprepare]
    cases parseFile source <;> simp

section

variable {c : Config} {files : FileSystem} {path source : String}

/-- A file that cannot be read is not described. -/
theorem described_of_unread (h : files.read? path = none) :
    described c files path = .error (.read path) := by
  rw [described, FileSystem.textOf, h]
  rfl

/-- A file that is read is described once it is prepared. -/
theorem described_of_read (h : files.read? path = some source) :
    described c files path =
      (prepare c source path).map fun (root, items) => (describeItems c root items).value := by
  rw [described, FileSystem.textOf, h]
  exact value_describeSource c source path

/-- A file that cannot be prepared is not described. -/
theorem described_of_prepare_error {f : Fault} (hread : files.read? path = some source)
    (hprepare : prepare c source path = .error f) : described c files path = .error f := by
  rw [described_of_read hread, hprepare]
  rfl

/-- A file whose text is in the language is described. -/
theorem described_of_parses (hvalid : c.validate = .ok ()) (hread : files.read? path = some source)
    (hparse : (parseFile source).isSome) : ∃ ds, described c files path = .ok ds := by
  rw [described_of_read hread]
  cases hprepare : prepare c source path with
  | ok prepared => exact ⟨_, rfl⟩
  | error f =>
    rcases prepare_error_iff.mp hprepare with ⟨fault, hfault, -⟩ | ⟨-, hnone, -⟩
    · rw [hvalid] at hfault
      cases hfault
    · rw [hnone] at hparse
      cases hparse

/-- Files that can be read and parse are described, unless the settings cannot be used. -/
theorem described_or_invalid {paths : List String}
    (h : ∀ path ∈ paths, ∃ source, files.read? path = some source ∧ (parseFile source).isSome) :
    (∀ path ∈ paths, ∃ ds, described c files path = .ok ds) ∨
      ∃ fault first rest, c.validate = .error fault ∧ paths = first :: rest ∧
        described c files first = .error (.config fault) := by
  -- An invalid configuration is reported for the first file, if there is one.
  cases hvalid : c.validate with
  | ok _ =>
    refine Or.inl fun path hpath => ?_
    rcases h path hpath with ⟨source, hread, hparse⟩
    exact described_of_parses hvalid hread hparse
  | error fault =>
    cases paths with
    | nil => exact Or.inl (by simp)
    | cons first rest =>
      rcases h first List.mem_cons_self with ⟨source, hread, -⟩
      exact Or.inr ⟨fault, first, rest, rfl, rfl,
        described_of_prepare_error hread (prepare_of_invalid hvalid source first)⟩

/-- Describing never fails because something cannot be written. -/
theorem ne_write_of_described {f : Fault} (h : described c files path = .error f)
    (other : String) : f ≠ .write other := by
  rintro rfl
  cases hread : files.read? path with
  | none =>
    rw [described_of_unread hread] at h
    cases h
  | some source =>
    rw [described_of_read hread] at h
    cases hprepare : prepare c source path with
    | ok prepared =>
      rw [hprepare] at h
      cases h
    | error f =>
      rw [hprepare] at h
      cases h
      simp [prepare_error_iff] at hprepare

end

/-! ## Tasks -/

namespace CommandLine

/-- A message around a command changes failures alone. -/
theorem outcome_within {α : Type} (message : String) (x : Command α) (w : Workspace) :
    outcome (within message x) w =
      ((outcome x w).1.mapError (Failure.mk message), (outcome x w).2) := rfl

/-- Loading settings leaves the workspace as it is. -/
theorem keepsWorkspace_loadConfig (path module : Option String) :
    KeepsWorkspace (loadConfig path module) := by
  refine KeepsWorkspace.bind ?_ fun c => ?_
  · cases path with
    | none => exact fun _ => rfl
    | some path =>
      intro w
      rw [readSettings, outcome_within, readConfig, outcome_readFile_bind]
  · cases module with
    | none => exact fun _ => rfl
    | some module => exact KeepsWorkspace.bind (fun _ => rfl) fun _ _ => rfl

/-- Generating from a file fails with a message, and leaves the workspace as it is. -/
theorem outcome_within_generateFile {c : Config} {path : String} {w : Workspace} {f : Fault}
    (h : (outcome (generateFile c path) w).1 = .error f) (message : String) :
    outcome (within message (generateFile c path)) w = (.error ⟨message, f⟩, w) := by
  rw [outcome_within, h, outcome_generateFile]
  rfl

end CommandLine

end Memberwise
