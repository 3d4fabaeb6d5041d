import Memberwise.Proofs.Writing

/-!
# Memberwise.Proofs.Compiling — from files to artifacts

Compiling describes one file after another, collects the artifacts of all of them, and only then
writes. So it fails before it writes exactly if a file cannot be described, and the first such file
stops it: the files are untouched, and the lines of the files up to that one have been printed
(`stops_before_writing`).

If all files are described, the artifacts are those of all descriptors, of which the first of each
name is kept (`firstsBy`). The names that are taken are handed on from file to file, so it does not
matter whether each file keeps its first artifacts before all files do (`firstsBy_flatMap`,
`compile_writes_firsts`).
-/

namespace Memberwise

open Command Source

/-! ## The first element of each key -/

section

variable {α κ : Type} [DecidableEq κ] {key : α → κ}

/-- The elements whose key neither is in `seen` nor belongs to an element before them. -/
def firstsAfter (key : α → κ) (seen : List κ) : List α → List α
  | [] => []
  | x :: xs =>
    if key x ∈ seen then firstsAfter key (key x :: seen) xs
    else x :: firstsAfter key (key x :: seen) xs

/-- The elements whose key belongs to no element before them. -/
def firstsBy (key : α → κ) (xs : List α) : List α := firstsAfter key [] xs

/-- What is kept depends only on which keys were seen. -/
theorem firstsAfter_congr {seen seen' : List κ} (h : ∀ k, k ∈ seen ↔ k ∈ seen') (xs : List α) :
    firstsAfter key seen xs = firstsAfter key seen' xs := by
  induction xs generalizing seen seen' with
  | nil => rfl
  | cons x xs ih =>
    have hcons : ∀ k, k ∈ key x :: seen ↔ k ∈ key x :: seen' := by
      intro k
      rw [List.mem_cons, List.mem_cons, h]
    simp only [firstsAfter, h, ih hcons]

/-- After the first part, its keys were seen too. -/
theorem firstsAfter_append (seen : List κ) (xs ys : List α) :
    firstsAfter key seen (xs ++ ys) =
      firstsAfter key seen xs ++ firstsAfter key (xs.map key ++ seen) ys := by
  induction xs generalizing seen with
  | nil => rfl
  | cons x xs ih =>
    -- the keys that were seen stand in another order, which does not matter
    have hseen : ∀ k, k ∈ xs.map key ++ key x :: seen ↔ k ∈ (x :: xs).map key ++ seen := by
      intro k
      simp only [List.map_cons, List.cons_append, List.mem_append, List.mem_cons]
      exact or_left_comm
    rw [List.cons_append, firstsAfter, firstsAfter, ih, firstsAfter_congr hseen]
    split <;> rfl

/-- Of each key that was not seen, one element is kept. -/
theorem mem_map_firstsAfter {seen : List κ} {xs : List α} {k : κ} :
    k ∈ (firstsAfter key seen xs).map key ↔ k ∈ xs.map key ∧ k ∉ seen := by
  induction xs generalizing seen with
  | nil => simp [firstsAfter]
  | cons x xs ih =>
    rw [firstsAfter]
    split
    · next hseen =>
      rw [ih, List.map_cons, List.mem_cons, List.mem_cons]
      grind
    · next hnew =>
      rw [List.map_cons, List.mem_cons, ih, List.map_cons, List.mem_cons, List.mem_cons]
      grind

/-- No key is kept twice. -/
theorem nodup_map_firstsAfter (seen : List κ) (xs : List α) :
    ((firstsAfter key seen xs).map key).Nodup := by
  induction xs generalizing seen with
  | nil => simp [firstsAfter]
  | cons x xs ih =>
    rw [firstsAfter]
    split
    · exact ih _
    · rw [List.map_cons, List.nodup_cons]
      refine ⟨fun hmem => ?_, ih _⟩
      exact (mem_map_firstsAfter.mp hmem).2 List.mem_cons_self

/-- Keeping first elements twice is keeping them once, if the second time looks at no fewer
keys. -/
theorem firstsAfter_firstsAfter {seen seen' : List κ} (h : seen' ⊆ seen) (xs : List α) :
    firstsAfter key seen (firstsAfter key seen' xs) = firstsAfter key seen xs := by
  induction xs generalizing seen seen' with
  | nil => rfl
  | cons x xs ih =>
    have hcons := ih (List.cons_subset_cons (key x) h)
    rw [firstsAfter, firstsAfter]
    split
    · next hmem =>
      -- a key that was seen before does not count as new
      have hseen : ∀ k, k ∈ seen ↔ k ∈ key x :: seen := by
        intro k
        rw [List.mem_cons]
        exact ⟨Or.inr, fun hk => hk.elim (fun heq => heq ▸ h hmem) id⟩
      rw [if_pos (h hmem), ← hcons]
      exact firstsAfter_congr hseen _
    · rw [firstsAfter, hcons]

/-- It does not matter whether each part keeps its first elements before the whole does. -/
theorem firstsBy_flatMap {β : Type} (parts : β → List α) (bs : List β) :
    firstsBy key (bs.flatMap fun b => firstsBy key (parts b)) =
      firstsBy key (bs.flatMap parts) := by
  have hafter : ∀ seen, firstsAfter key seen (bs.flatMap fun b => firstsBy key (parts b)) =
      firstsAfter key seen (bs.flatMap parts) := by
    -- The parts are deduplicated first, so what was seen before each of them must be the same.
    intro seen
    induction bs generalizing seen with
    | nil => rfl
    | cons b bs ih =>
      have hseen : ∀ k, k ∈ (firstsBy key (parts b)).map key ++ seen ↔
          k ∈ (parts b).map key ++ seen := by
        intro k
        rw [List.mem_append, List.mem_append, firstsBy, mem_map_firstsAfter]
        simp
      rw [List.flatMap_cons, List.flatMap_cons, firstsAfter_append, firstsAfter_append, ih,
        firstsAfter_congr hseen, firstsBy, firstsAfter_firstsAfter (List.nil_subset _)]
  exact hafter []

end

/-! ## Artifacts of descriptors -/

/-- The artifact of a descriptor, if it has one. -/
def emitted (c : Config) (d : Descriptor) : Option Artifact := (emit c d).value

/-- The names that are taken are those of all artifacts so far, kept or not. -/
theorem value_artifactsAfter (c : Config) {used seen : List String}
    (h : ∀ name, name ∈ used ↔ name ∈ seen) (ds : List Descriptor) :
    (artifactsAfter c used ds).value =
      firstsAfter Artifact.name seen (ds.filterMap (emitted c)) := by
  -- Induction on the descriptors: the two lists of used names differ but have the same members.
  induction ds generalizing used seen with
  | nil => rfl
  | cons d ds ih =>
    rw [artifactsAfter, Traced.value_bind]
    cases hemit : (emit c d).value with
    | none =>
      have hnone : emitted c d = none := hemit
      rw [List.filterMap_cons_none hnone]
      exact ih h
    | some a =>
      have hsome : emitted c d = some a := hemit
      rw [List.filterMap_cons_some hsome, firstsAfter]
      simp only [List.contains_iff_mem, h]
      split
      -- A name that is already taken leaves the set of names as it is.
      · next hmem =>
        refine ih fun name => ?_
        rw [h, List.mem_cons]
        exact ⟨Or.inr, fun hname => hname.elim (fun heq => heq ▸ hmem) id⟩
      · refine congrArg (a :: ·) (ih fun name => ?_)
        rw [List.mem_cons, List.mem_cons, h]

/-! ## Collecting the artifacts of files -/

/-- The line that is printed for a file. -/
def rerunLine (path : String) : String := "cargo:rerun-if-changed=" ++ path

/-- A workspace after lines for files have been printed. -/
def Workspace.announcing (w : Workspace) (paths : List String) : Workspace :=
  { w with printed := w.printed ++ paths.map rerunLine }

/-- Files are announced one after the other. -/
theorem Workspace.announcing_cons (w : Workspace) (path : String) (paths : List String) :
    w.announcing (path :: paths) = (w.announcing [path]).announcing paths := by
  simp [announcing]

section

variable {c : Config} {w : Workspace}

/-- The line for the build tool announces a file. -/
theorem outcome_print_rerunLine (path : String) (w : Workspace) :
    outcome (print ("cargo:rerun-if-changed=" ++ path)) w = (.ok (), w.announcing [path]) :=
  outcome_print _ w

/-- Lines that were printed do not matter to what a file declares. -/
theorem outcome_describeFile_announcing {path : String} {r : Except Fault (List Descriptor)}
    (h : described c w.files path = r) (paths : List String) :
    outcome (describeFile c path) (w.announcing paths) = (r, w.announcing paths) := by
  rw [outcome_describeFile]
  exact congrArg (·, _) h

/-- If all files are described, the artifacts of all of them are collected. -/
theorem outcome_collectArtifacts {paths : List String} {ds : String → List Descriptor}
    (h : ∀ path ∈ paths, described c w.files path = .ok (ds path)) {used seen : List String}
    (hused : ∀ name, name ∈ used ↔ name ∈ seen) :
    outcome (collectArtifacts c used paths) w =
      (.ok (firstsAfter Artifact.name seen ((paths.flatMap ds).filterMap (emitted c))),
        w.announcing paths) := by
  induction paths generalizing w used seen with
  | nil => simp [collectArtifacts, firstsAfter, Workspace.announcing]
  | cons path paths ih =>
    have hprint := outcome_print_rerunLine path w
    have hdescribe := outcome_describeFile_announcing (h path List.mem_cons_self) [path]
    have hemit : outcome (ofOutcome (artifactsAfter c used (ds path))) (w.announcing [path]) =
        (.ok (firstsAfter Artifact.name seen ((ds path).filterMap (emitted c))),
          w.announcing [path]) := by
      rw [← value_artifactsAfter c hused, outcome_ofOutcome]
      rfl
    -- the names that are taken now are those of all artifacts of the file and before
    have hused' : ∀ name,
        name ∈ used ++ (firstsAfter Artifact.name seen ((ds path).filterMap (emitted c))).map
            Artifact.name ↔
          name ∈ ((ds path).filterMap (emitted c)).map Artifact.name ++ seen := by
      intro name
      rw [List.mem_append, List.mem_append, mem_map_firstsAfter, hused]
      grind
    -- printing a line leaves the files, so the other files are described as before
    have hrest := ih (w := w.announcing [path])
      (fun p hp => h p (List.mem_cons_of_mem _ hp)) hused'
    rw [collectArtifacts, outcome_bind_ok hprint, outcome_bind_ok hdescribe, outcome_bind_ok hemit,
      outcome_bind_ok hrest, outcome_pure, List.flatMap_cons, List.filterMap_append,
      firstsAfter_append, ← Workspace.announcing_cons]

/-- The first file that cannot be described stops the others. -/
theorem outcome_collectArtifacts_error {before : List String} {path : String} {f : Fault}
    (hbefore : ∀ p ∈ before, ∃ ds, described c w.files p = .ok ds)
    (h : described c w.files path = .error f) (after used : List String) :
    outcome (collectArtifacts c used (before ++ path :: after)) w =
      (.error f, w.announcing (before ++ [path])) := by
  -- Induction on the inputs that can be described; each one only prints its line.
  induction before generalizing w used with
  | nil =>
    have hdescribe := outcome_describeFile_announcing h [path]
    rw [List.nil_append, collectArtifacts, outcome_bind_ok (outcome_print_rerunLine path w),
      outcome_bind_error hdescribe]
    rfl
  | cons p before ih =>
    rcases hbefore p List.mem_cons_self with ⟨ds, hds⟩
    have hdescribe := outcome_describeFile_announcing hds [p]
    have hemit : outcome (ofOutcome (artifactsAfter c used ds)) (w.announcing [p]) =
        (.ok (artifactsAfter c used ds).value, w.announcing [p]) := outcome_ofOutcome _ _
    rw [List.cons_append, collectArtifacts, outcome_bind_ok (outcome_print_rerunLine p w),
      outcome_bind_ok hdescribe, outcome_bind_ok hemit, List.cons_append,
      Workspace.announcing_cons w p (before ++ [path])]
    exact outcome_bind_error (ih (w := w.announcing [p])
      (fun q hq => hbefore q (List.mem_cons_of_mem _ hq)) h _)

/-- Either all files are described, or there is a first that is not. -/
theorem described_or_first_error (c : Config) (files : FileSystem) (paths : List String) :
    (∀ path ∈ paths, ∃ ds, described c files path = .ok ds) ∨
      ∃ before path after f, paths = before ++ path :: after ∧
        (∀ p ∈ before, ∃ ds, described c files p = .ok ds) ∧ described c files path = .error f := by
  induction paths with
  | nil => exact Or.inl (by simp)
  | cons path paths ih =>
    cases hpath : described c files path with
    | error f => exact Or.inr ⟨[], path, paths, f, rfl, by simp, hpath⟩
    | ok ds =>
      -- Adding a described input to described ones keeps them all described.
      have hcons : ∀ {ps : List String}, (∀ p ∈ ps, ∃ ds, described c files p = .ok ds) →
          ∀ p ∈ path :: ps, ∃ ds, described c files p = .ok ds := by
        intro ps hps p hp
        rcases List.mem_cons.mp hp with rfl | hp
        · exact ⟨ds, hpath⟩
        · exact hps p hp
      rcases ih with hall | ⟨before, p, after, f, rfl, hbefore, hp⟩
      · exact Or.inl (hcons hall)
      · exact Or.inr ⟨path :: before, p, after, f, rfl, hcons hbefore, hp⟩

end

/-! ## Lines that were printed before -/

/-- Whether a command goes the same way whatever lines for files have been printed before. -/
def IgnoresLines {α : Type} (x : Command α) : Prop :=
  ∀ w paths, outcome x (Workspace.announcing w paths) =
    ((outcome x w).1, (outcome x w).2.announcing paths)

namespace IgnoresLines

variable {α β : Type} {x : Command α} {f : α → Command β}

/-- Commands that ignore lines ignore them one after the other. -/
theorem bind (hx : IgnoresLines x) (hf : ∀ a, IgnoresLines (f a)) : IgnoresLines (x >>= f) := by
  intro w paths
  have hlines := hx w paths
  rcases hresult : outcome x w with ⟨result, w'⟩
  rw [hresult] at hlines
  cases result with
  | ok a =>
    rw [outcome_bind_ok hresult, outcome_bind_ok hlines]
    exact hf a w' paths
  | error e => rw [outcome_bind_error hresult, outcome_bind_error hlines]

/-- Repeating a command that ignores lines ignores them. -/
theorem mapM {f : α → Command β} (hf : ∀ a, IgnoresLines (f a)) (xs : List α) :
    IgnoresLines (xs.mapM f) :=
  mapM_of_bind (Q := IgnoresLines) (fun _ _ _ => rfl) bind fun x _ => hf x

end IgnoresLines

/-- Writing an artifact does not look at the lines that were printed. -/
theorem ignoresLines_writeArtifact (out : String) (a : Artifact) :
    IgnoresLines (writeArtifact out a) := by
  intro w paths
  have hfiles : (w.announcing paths).files = w.files := rfl
  by_cases hkept : w.files.read? (joinPath out a.name) = some a.contents
  · rw [(writeArtifact_kept hkept).1, (writeArtifact_kept (w := w.announcing paths) hkept).1]
  · rw [writeArtifact_changed hkept, writeArtifact_changed (w := w.announcing paths) hkept, hfiles]
    cases w.files.write? (joinPath out a.name) a.contents <;> rfl

/-- Writing artifacts does not look at the lines that were printed. -/
theorem ignoresLines_writeArtifacts (artifacts : List Artifact) (out : String) :
    IgnoresLines (writeArtifacts artifacts out) := by
  intro w paths
  cases hmade : (w.files.makeDirectories out).2 with
  | false =>
    rw [writeArtifacts_unmade hmade, writeArtifacts_unmade (w := w.announcing paths) hmade]
    rfl
  | true =>
    rw [(writeArtifacts_made hmade artifacts).1,
      (writeArtifacts_made (w := w.announcing paths) hmade artifacts).1]
    exact IgnoresLines.mapM (ignoresLines_writeArtifact out) artifacts (w.making out) paths

/-! ## Compiling files -/

/-- The descriptors of a file; none if it is not described. -/
def descriptorsOf (c : Config) (files : FileSystem) (path : String) : List Descriptor :=
  (described c files path).toOption.getD []

/-- A file that is described has these descriptors. -/
theorem described_descriptorsOf {c : Config} {files : FileSystem} {path : String}
    (h : ∃ ds, described c files path = .ok ds) :
    described c files path = .ok (descriptorsOf c files path) := by
  rcases h with ⟨ds, hds⟩
  rw [descriptorsOf, hds]
  rfl

section

variable {c : Config} {paths : List String} {w : Workspace}

/-- If all files are described, compiling writes the first artifact of each name. -/
theorem outcome_compile (h : ∀ path ∈ paths, ∃ ds, described c w.files path = .ok ds)
    (out : String) :
    outcome (compile c paths out) w =
      outcome (writeArtifacts (firstsBy Artifact.name
        ((paths.flatMap (descriptorsOf c w.files)).filterMap (emitted c))) out)
        (w.announcing paths) := by
  have hds : ∀ path ∈ paths, described c w.files path = .ok (descriptorsOf c w.files path) :=
    fun path hpath => described_descriptorsOf (h path hpath)
  have hnone : ∀ name : String, name ∈ ([] : List String) ↔ name ∈ ([] : List String) :=
    fun _ => Iff.rfl
  exact outcome_bind_ok (outcome_collectArtifacts hds hnone)

/-- Compiling fails otherwise than in writing exactly if there is a first file that cannot be
described. -/
theorem compile_stops_iff {out : String} {f : Fault} {w' : Workspace} :
    outcome (compile c paths out) w = (.error f, w') ∧ (∀ path, f ≠ .write path) ↔
      ∃ before path after, paths = before ++ path :: after ∧
        (∀ p ∈ before, ∃ ds, described c w.files p = .ok ds) ∧
        described c w.files path = .error f ∧ w' = w.announcing (before ++ [path]) := by
  constructor
  · rintro ⟨herror, hwrite⟩
    rcases described_or_first_error c w.files paths with
      hall | ⟨before, path, after, e, rfl, hbefore, hpath⟩
    · -- only writing is left to fail
      rw [outcome_compile hall] at herror
      rcases exists_write_of_error herror with ⟨path, rfl⟩
      exact absurd rfl (hwrite path)
    · have hstop := outcome_bind_error (f := (writeArtifacts · out))
        (outcome_collectArtifacts_error hbefore hpath after [])
      cases hstop.symm.trans herror
      exact ⟨before, path, after, rfl, hbefore, hpath, rfl⟩
  · rintro ⟨before, path, after, rfl, hbefore, hpath, rfl⟩
    exact ⟨outcome_bind_error (outcome_collectArtifacts_error hbefore hpath after []),
      ne_write_of_described hpath⟩

end

/-- Compiling fails otherwise than in writing exactly if there is a first file that cannot be
described. Then no file has changed, and the lines of the files up to that one have been printed.
Also the task that generates from one file leaves everything as it is, if settings cannot be loaded
or nothing can be generated. -/
theorem stops_before_writing (c : Config) (paths : List String) (out : String) (w : Workspace) :
    (∀ f w', outcome (compile c paths out) w = (.error f, w') ∧ (∀ path, f ≠ .write path) ↔
      ∃ before path after, paths = before ++ path :: after ∧
        (∀ p ∈ before, ∃ ds, outcome (describeFile c p) w = (.ok ds, w)) ∧
        outcome (describeFile c path) w = (.error f, w) ∧
        w'.files = w.files ∧ w'.printed = w.printed ++ (before ++ [path]).map rerunLine) ∧
    ∀ input output module config,
      (∀ failure, (outcome (CommandLine.loadConfig config module) w).1 = .error failure →
        outcome (CommandLine.generate input output module config) w = (.error failure, w)) ∧
      ∀ c' f, (outcome (CommandLine.loadConfig config module) w).1 = .ok c' →
        (outcome (generateFile c' input) w).1 = .error f →
        outcome (CommandLine.generate input output module config) w =
          (.error ⟨"Failed to generate from " ++ input, f⟩, w) := by
  refine ⟨fun f w' => ?_, fun input output module config => ⟨fun failure hload => ?_, ?_⟩⟩
  -- Nothing but printed lines separates the two workspaces.
  · have hprinted : ∀ ps, w' = w.announcing ps ↔
        w'.files = w.files ∧ w'.printed = w.printed ++ ps.map rerunLine := by
      intro ps
      cases w'
      simp [Workspace.announcing]
    simp only [compile_stops_iff, outcome_describeFile, Prod.mk.injEq, and_true, hprinted]
  · exact outcome_bind_error ((CommandLine.keepsWorkspace_loadConfig _ _).outcome_eq hload)
  · intro c' f hload hgenerate
    have hloaded := (CommandLine.keepsWorkspace_loadConfig config module).outcome_eq hload
    rw [CommandLine.generate, outcome_bind_ok hloaded]
    exact outcome_bind_error (CommandLine.outcome_within_generateFile hgenerate _)

/-- Two files that declare a struct of one name, and one file that does not parse. -/
def pairFiles : FileSystem :=
  ⟨[(["a.rs"], .file "#[derive(propgroup::PropertyMap)] struct P \x7b a: u8 \x7d"),
    (["b.rs"], .file "#[derive(propgroup::PropertyMap)] struct P \x7b b: u8 \x7d"),
    (["bad.rs"], .file "struct \x7b")]⟩

theorem stops_before_writing_bad :
    outcome (compile .default ["a.rs", "bad.rs", "b.rs"] "out") ⟨pairFiles, []⟩ =
        (.error (.parse "bad.rs"),
          ⟨pairFiles, ["cargo:rerun-if-changed=a.rs", "cargo:rerun-if-changed=bad.rs"]⟩) ∧
      outcome (CommandLine.generate "missing.rs" "out" none none) ⟨pairFiles, []⟩ =
        (.error ⟨"Failed to generate from missing.rs", .read "missing.rs"⟩, ⟨pairFiles, []⟩) := by
  have hstops := stops_before_writing .default ["a.rs", "bad.rs", "b.rs"] "out" ⟨pairFiles, []⟩
  -- The first file is good and the second is not; the third is never reached.
  have hgood : ∃ ds, described .default pairFiles "a.rs" = .ok ds :=
    described_of_parses rfl rfl (by decide +kernel)
  have hprepare : prepare .default "struct \x7b" "bad.rs" = .error (.parse "bad.rs") :=
    prepare_error_iff.mpr (Or.inr ⟨rfl, Option.isNone_iff_eq_none.mp (by decide +kernel), rfl⟩)
  have hbad : described .default pairFiles "bad.rs" = .error (.parse "bad.rs") :=
    described_of_prepare_error rfl hprepare
  constructor
  · refine And.left ((hstops.1 _ _).mpr ⟨["a.rs"], "bad.rs", ["b.rs"], rfl, ?_, ?_, rfl, rfl⟩)
    · intro p hp
      rw [List.mem_singleton.mp hp]
      rcases hgood with ⟨ds, hds⟩
      exact ⟨ds, by rw [outcome_describeFile, hds]⟩
    · rw [outcome_describeFile, hbad]
  · refine (hstops.2 "missing.rs" "out" none none).2 .default _ rfl ?_
    rw [outcome_generateFile, described_of_unread rfl]
    rfl

/-- Of a file that is described, the artifacts with different names are made. -/
theorem outcome_generateFile_of_described {c : Config} {path : String} {w : Workspace}
    {ds : List Descriptor} (h : described c w.files path = .ok ds) :
    outcome (generateFile c path) w =
      (.ok (firstsBy Artifact.name (ds.filterMap (emitted c))), w) := by
  rw [outcome_generateFile, h, firstsBy, ← value_artifactsAfter c fun _ => Iff.rfl]
  rfl

/-- Compiling one file gives what generating from it and writing that gives. -/
theorem compile_singleton (c : Config) (path out : String) (w : Workspace) :
    (outcome (compile c [path] out) w).1 =
        (outcome (generateFile c path >>= (writeArtifacts · out)) w).1 ∧
      (outcome (compile c [path] out) w).2.files =
        (outcome (generateFile c path >>= (writeArtifacts · out)) w).2.files := by
  -- One input has no earlier artifact to collide with, so `compile` adds a printed line only.
  cases hds : described c w.files path with
  | ok ds =>
    have hall : ∀ p ∈ [path], ∃ ds, described c w.files p = .ok ds := by
      intro p hp
      rw [List.mem_singleton.mp hp]
      exact ⟨ds, hds⟩
    have hgen := outcome_generateFile_of_described (described_descriptorsOf ⟨ds, hds⟩)
    rw [outcome_compile hall, ignoresLines_writeArtifacts _ out w, outcome_bind_ok hgen,
      List.flatMap_singleton]
    exact ⟨rfl, rfl⟩
  | error f =>
    have hstop : outcome (collectArtifacts c [] ([] ++ path :: [])) w = _ :=
      outcome_collectArtifacts_error (by simp) hds [] []
    have hgen : outcome (generateFile c path) w = (.error f, w) := by
      rw [outcome_generateFile, hds]
      rfl
    have hcompile : outcome (compile c [path] out) w = _ := outcome_bind_error hstop
    rw [hcompile, outcome_bind_error hgen]
    exact ⟨rfl, rfl⟩

/-- If all files can be read and parse, and the settings can be used, compiling writes the artifacts
of all descriptors in order, of those with one name the first. So their names are distinct, and it
is the same to generate from each file, and to keep the first of each name. For one file, it is the
same to generate from it and to write what that gives. -/
theorem compile_writes_firsts (c : Config) (paths : List String) (out : String) (w : Workspace)
    (h : ∀ path ∈ paths, ∃ source, w.files.read? path = some source ∧ (parseFile source).isSome) :
    ((∃ fault first rest, c.validate = .error fault ∧ paths = first :: rest ∧
        outcome (compile c paths out) w = (.error (.config fault), w.announcing [first])) ∨
      ∃ (ds : String → List Descriptor) (gen : String → List Artifact) (artifacts : List Artifact),
        (∀ path ∈ paths, outcome (describeFile c path) w = (.ok (ds path), w) ∧
          outcome (generateFile c path) w = (.ok (gen path), w)) ∧
        artifacts = firstsBy Artifact.name ((paths.flatMap ds).filterMap (emitted c)) ∧
        outcome (compile c paths out) w = ((outcome (writeArtifacts artifacts out) w).1,
          (outcome (writeArtifacts artifacts out) w).2.announcing paths) ∧
        (artifacts.map Artifact.name).Nodup ∧
        artifacts = firstsBy Artifact.name (paths.flatMap gen)) ∧
    ∀ path,
      (outcome (compile c [path] out) w).1 =
          (outcome (generateFile c path >>= (writeArtifacts · out)) w).1 ∧
        (outcome (compile c [path] out) w).2.files =
          (outcome (generateFile c path >>= (writeArtifacts · out)) w).2.files := by
  refine ⟨?_, fun path => compile_singleton c path out w⟩
  rcases described_or_invalid h with hall | ⟨fault, first, rest, hvalid, rfl, hfirst⟩
  · have hds := fun path hpath => described_descriptorsOf (hall path hpath)
    have hgen := fun path hpath => outcome_generateFile_of_described (hds path hpath)
    have hcompile := (outcome_compile hall out).trans (ignoresLines_writeArtifacts _ out w paths)
    refine Or.inr ⟨descriptorsOf c w.files, _, _, fun path hpath => ⟨?_, hgen path hpath⟩, rfl,
      hcompile, nodup_map_firstsAfter _ _, ?_⟩
    · rw [outcome_describeFile, hds path hpath]
    · rw [firstsBy_flatMap, List.filterMap_flatMap]
  -- An invalid setting stops at the first input, before any artifact.
  · have hstop : outcome (collectArtifacts c [] ([] ++ first :: rest)) w = _ :=
      outcome_collectArtifacts_error (by simp) hfirst rest []
    exact Or.inl ⟨fault, first, rest, hvalid, rfl, outcome_bind_error hstop⟩

theorem compile_writes_firsts_pair :
    (∀ path ∈ ["a.rs", "b.rs"], ∃ source,
        pairFiles.read? path = some source ∧ (parseFile source).isSome) ∧
      ∃ a b, outcome (generateFile .default "a.rs") ⟨pairFiles, []⟩ = (.ok [a], ⟨pairFiles, []⟩) ∧
        outcome (generateFile .default "b.rs") ⟨pairFiles, []⟩ = (.ok [b], ⟨pairFiles, []⟩) ∧
        a.name = b.name ∧
        outcome (compile .default ["a.rs", "b.rs"] "out") ⟨pairFiles, []⟩ =
          ((outcome (writeArtifacts [a] "out") ⟨pairFiles, []⟩).1,
            (outcome (writeArtifacts [a] "out") ⟨pairFiles, []⟩).2.announcing
              ["a.rs", "b.rs"]) := by
  have hparse : ∀ path ∈ ["a.rs", "b.rs"], ∃ source,
      pairFiles.read? path = some source ∧ (parseFile source).isSome := by
    intro path hpath
    simp only [List.mem_cons, List.not_mem_nil, or_false] at hpath
    rcases hpath with rfl | rfl
    · exact ⟨_, rfl, by decide +kernel⟩
    · exact ⟨_, rfl, by decide +kernel⟩
  have hnames : ∀ path ∈ ["a.rs", "b.rs"],
      ((outcome (generateFile .default path) ⟨pairFiles, []⟩).1.toOption.map
        (List.map Artifact.name)) = some ["p_extensions.rs"] := by decide +kernel
  refine ⟨hparse, ?_⟩
  rcases (compile_writes_firsts .default ["a.rs", "b.rs"] "out" ⟨pairFiles, []⟩ hparse).1 with
    ⟨fault, _, _, hinvalid, -⟩ | ⟨ds, gen, artifacts, hfiles, -, hcompile, -, hfirsts⟩
  · cases hinvalid
  -- Both files make an artifact of one name, and the first one's is kept.
  · have hone : ∀ path ∈ ["a.rs", "b.rs"], ∃ a, gen path = [a] ∧ a.name = "p_extensions.rs" := by
      intro path hpath
      have hname := hnames path hpath
      rw [(hfiles path hpath).2] at hname
      simpa [Except.toOption, List.map_eq_singleton_iff, and_comm] using hname
    rcases hone "a.rs" (by simp) with ⟨a, ha, haname⟩
    rcases hone "b.rs" (by simp) with ⟨b, hb, hbname⟩
    have hfirst : artifacts = [a] := by
      rw [hfirsts]
      simp [ha, hb, firstsBy, firstsAfter, haname, hbname]
    rw [hfirst] at hcompile
    refine ⟨a, b, ?_, ?_, haname.trans hbname.symm, hcompile⟩
    · rw [(hfiles "a.rs" (by simp)).2, ha]
    · rw [(hfiles "b.rs" (by simp)).2, hb]

end Memberwise
