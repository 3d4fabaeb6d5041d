import Memberwise.Proofs.ArtifactText
import Memberwise.Proofs.Compiling

/-!
# Memberwise.Proofs.OutputDirectory — nothing is written outside the directory

The name of an artifact is the name of a struct in snake case, with an ending that was checked. The
first part holds characters of identifiers only, so there is no slash in it, and the ending has none
either (`isArtifactName_of_emitted`). Such a name stands for one place in a directory.

A command stays in a directory (`StaysIn`) if it changes files only at such places. Commands that do
so can be put one after another, because a directory that is there is never replaced by a file, so
that the way to the directory stays (`ChangesOnlyIn.get?_directory`). With it, generated files are
only ever written to the directory that was asked for (`writes_only_in_directory`).
-/

namespace Memberwise

open FileSystem Source Text

/-! ## Names of artifacts -/

/-- A file name that ends in `.rs` and leads from a directory to one place in it. -/
structure IsArtifactName (name : String) : Prop where
  ending : ".rs".toList <:+ name.toList
  noSlash : '/' ∉ name.toList
  noBackslash : '\\' ∉ name.toList
  /-- The name is the only component of the path that it is. -/
  component : routeNames name = [name]
  /-- It is neither empty nor a point, and does not lead to the directory around. -/
  entry : isEntryName name = true

theorem isEntryName_of_ending {name : String} (h : ".rs".toList <:+ name.toList) :
    isEntryName name = true := by
  have hlast : name.toList.getLast? = some 's' := by
    obtain ⟨front, heq⟩ := h
    rw [← heq, List.getLast?_append]
    rfl
  have hne : ∀ other : String, other.toList.getLast? ≠ some 's' → name ≠ other := by
    rintro other hother rfl
    exact hother hlast
  simp [isEntryName, isStep, hne "" (by decide), hne "." (by decide), hne ".." (by decide)]

theorem IsArtifactName.of_ending {name : String} (hending : ".rs".toList <:+ name.toList)
    (hslash : '/' ∉ name.toList) (hbackslash : '\\' ∉ name.toList) : IsArtifactName name := by
  have hentry := isEntryName_of_ending hending
  refine ⟨hending, hslash, hbackslash, ?_, hentry⟩
  have hhead : name.toList.head? ≠ some '/' := fun hhead => hslash (List.mem_of_mem_head? hhead)
  have hstep : isStep name = true := (Bool.and_eq_true_iff.mp hentry).1
  rw [routeNames, if_neg hhead, List.nil_append, pathPieces_of_notMem hslash]
  exact List.filter_cons_of_pos hstep

/-- A word in snake case with an ending that can be used is the name of an artifact. -/
theorem isArtifactName_artifactName {c : Config} (hc : c.validate = .ok ()) {name : String}
    (h : Token.IsWord name.toList) : IsArtifactName (artifactName c name) := by
  have hsuffix := (Config.validate_eq_ok_iff.mp hc).2.2.1
  rw [isArtifactSuffix, Bool.and_eq_true, List.isSuffixOf_iff_suffix] at hsuffix
  obtain ⟨hending, hfree⟩ := hsuffix
  have hsnake : ∀ ch ∈ (Naming.toSnakeCase name).toList, isIdentContinue ch = true := by
    rw [Naming.toSnakeCase, String.toList_ofList]
    exact isIdentContinue_snakeFrom h.isIdentContinue
  -- a character that no identifier has could only stand in the ending
  have hnone : ∀ ch, isIdentContinue ch = false → ch ∉ c.artifactSuffix.toList →
      ch ∉ (artifactName c name).toList := by
    intro ch hch hsuffix hmem
    rw [artifactName, String.toList_append, List.mem_append] at hmem
    rcases hmem with hmem | hmem
    · rw [hsnake ch hmem] at hch
      cases hch
    · exact hsuffix hmem
  rw [Bool.not_eq_true', List.any_eq_false] at hfree
  apply IsArtifactName.of_ending
  · rw [artifactName, String.toList_append]
    exact hending.trans (List.suffix_append _ _)
  · exact hnone '/' (by decide +kernel) fun hmem => hfree '/' hmem (by decide)
  · exact hnone '\\' (by decide +kernel) fun hmem => hfree '\\' hmem (by decide)

theorem validate_of_describeSource {c : Config} {source origin : String} {ds : List Descriptor}
    (h : (describeSource c source origin).run.value = .ok ds) : c.validate = .ok () := by
  rw [value_describeSource] at h
  cases hvalid : c.validate with
  | ok _ => rfl
  | error fault =>
    rw [prepare_of_invalid hvalid] at h
    cases h

theorem name_of_emitted {c : Config} {d : Descriptor} {a : Artifact} (h : emitted c d = some a) :
    a.name = artifactName c d.simpleName := by
  rw [emitted, emit] at h
  split at h
  · cases h
  · cases h
    rfl

/-- The artifacts of a source that is described have names of artifacts. -/
theorem isArtifactName_of_emitted {c : Config} {source origin : String} {ds : List Descriptor}
    (h : (describeSource c source origin).run.value = .ok ds) {a : Artifact}
    (ha : a ∈ ds.filterMap (emitted c)) : IsArtifactName a.name := by
  obtain ⟨d, hd, hemitted⟩ := List.mem_filterMap.mp ha
  rw [name_of_emitted hemitted]
  exact isArtifactName_artifactName (validate_of_describeSource h)
    (isWord_of_describeSource h hd).1

theorem isArtifactName_of_mem_firstsBy {artifacts : List Artifact}
    (h : ∀ a ∈ artifacts, IsArtifactName a.name) {a : Artifact}
    (ha : a ∈ firstsBy Artifact.name artifacts) : IsArtifactName a.name := by
  have hname := (mem_map_firstsAfter.mp (List.mem_map_of_mem ha)).1
  obtain ⟨b, hb, heq⟩ := List.mem_map.mp hname
  rw [← heq]
  exact h b hb

/-- Generating gives artifacts with names of artifacts. -/
theorem isArtifactName_of_generateSource {c : Config} {source origin : String}
    {artifacts : List Artifact}
    (h : (generateSource c source origin).run.value = .ok artifacts) :
    ∀ a ∈ artifacts, IsArtifactName a.name := by
  rw [value_generateSource] at h
  cases hds : (describeSource c source origin).run.value with
  | error fault =>
    rw [hds] at h
    cases h
  | ok ds =>
    rw [hds] at h
    cases h
    intro a ha
    dsimp only at ha
    -- What is written is the first artifact of each name among those of the descriptors.
    have hfirsts := value_artifactsAfter c (fun name => (Iff.rfl : name ∈ [] ↔ _)) ds
    rw [hfirsts] at ha
    exact isArtifactName_of_mem_firstsBy (fun b hb => isArtifactName_of_emitted hds hb) ha

theorem isArtifactName_of_described {c : Config} {files : FileSystem} {path : String}
    {ds : List Descriptor} (h : described c files path = .ok ds) {a : Artifact}
    (ha : a ∈ ds.filterMap (emitted c)) : IsArtifactName a.name := by
  rw [described] at h
  cases htext : files.textOf path with
  | error f =>
    rw [htext] at h
    cases h
  | ok source =>
    rw [htext] at h
    exact isArtifactName_of_emitted h ha

/-! ## Changes in a directory -/

/-- What has changed is that files with names of artifacts were written directly in a directory,
none of them where a directory was, and that directories were made on the way to it where nothing
was. -/
def ChangesOnlyIn (out : String) (before after : FileSystem) : Prop :=
  ∀ p, after.get? p = before.get? p ∨
    (∃ name text, IsArtifactName name ∧ p = directoryOf out ++ [name] ∧
      before.get? p ≠ some .directory ∧ after.get? p = some (.file text)) ∨
    (p ∈ wayTo out ∧ before.get? p = none ∧ after.get? p = some .directory)

namespace ChangesOnlyIn

variable {out : String} {before mid after : FileSystem}

theorem refl (out : String) (fs : FileSystem) : ChangesOnlyIn out fs fs := fun _ => Or.inl rfl

theorem of_grows (h : before.Grows (wayTo out) after) : ChangesOnlyIn out before after :=
  fun p => (h p).imp id Or.inr

/-- A directory that is there stays. -/
theorem get?_directory (h : ChangesOnlyIn out before after) {p : List String}
    (hp : before.get? p = some .directory) : after.get? p = some .directory := by
  rcases h p with hsame | ⟨_, _, -, -, hfree, -⟩ | ⟨-, hnone, -⟩
  · rw [hsame, hp]
  · exact absurd hp hfree
  · rw [hnone] at hp
    cases hp

theorem trans (h : ChangesOnlyIn out before mid) (h' : ChangesOnlyIn out mid after) :
    ChangesOnlyIn out before after := by
  intro p
  rcases h p with hsame | ⟨name, text, hname, hp, hfree, hfile⟩ | ⟨hway, hnone, hmade⟩
  · rw [← hsame]
    exact h' p
  · -- a file that was written may be written again
    right
    left
    rcases h' p with hsame | ⟨name', text', hname', hp', -, hfile'⟩ | ⟨-, hnone, -⟩
    · exact ⟨name, text, hname, hp, hfree, hsame.trans hfile⟩
    · exact ⟨name', text', hname', hp', hfree, hfile'⟩
    · rw [hnone] at hfile
      cases hfile
  · exact Or.inr (Or.inr ⟨hway, hnone, h'.get?_directory hmade⟩)

theorem insert {name text : String} (hname : IsArtifactName name)
    (hfree : before.get? (directoryOf out ++ [name]) ≠ some .directory) :
    ChangesOnlyIn out before (before.insert (directoryOf out ++ [name]) (.file text)) := by
  intro p
  by_cases hp : p = directoryOf out ++ [name]
  · subst hp
    exact Or.inr (Or.inl ⟨name, text, hname, rfl, hfree, get?_insert_self hfree _⟩)
  · exact Or.inl (get?_insert_of_ne hp before _)

end ChangesOnlyIn

/-! ## Commands that stay in a directory -/

/-- Whether a command changes files only in a directory that is there. -/
def StaysIn {α : Type} (out : String) (x : Command α) : Prop :=
  ∀ w, (∀ p ∈ wayTo out, w.files.get? p = some .directory) →
    ChangesOnlyIn out w.files (outcome x w).2.files

section

variable {α β : Type} {out : String} {x : Command α} {f : α → Command β}

/-- The way to the directory stays, so the second command finds it as well. -/
theorem StaysIn.bind (hx : StaysIn out x) (hf : ∀ a, StaysIn out (f a)) :
    StaysIn out (x >>= f) := by
  intro w hway
  have hfirst := hx w hway
  rcases hresult : outcome x w with ⟨result, w'⟩
  rw [hresult] at hfirst
  cases result with
  | ok a =>
    rw [outcome_bind_ok hresult]
    exact hfirst.trans (hf a w' fun p hp => hfirst.get?_directory (hway p hp))
  | error e =>
    rw [outcome_bind_error hresult]
    exact hfirst

theorem StaysIn.mapM {xs : List α} (hf : ∀ a ∈ xs, StaysIn out (f a)) :
    StaysIn out (xs.mapM f) :=
  mapM_of_bind (Q := StaysIn out) (fun _ w _ => ChangesOnlyIn.refl out w.files) StaysIn.bind hf

end

theorem staysIn_writeArtifact (out : String) {a : Artifact} (ha : IsArtifactName a.name) :
    StaysIn out (writeArtifact out a) := by
  intro w hway
  by_cases hkept : w.files.read? (joinPath out a.name) = some a.contents
  · rw [(writeArtifact_kept hkept).1]
    exact ChangesOnlyIn.refl out w.files
  · rw [writeArtifact_changed hkept]
    cases hwrite : w.files.write? (joinPath out a.name) a.contents with
    | none => exact ChangesOnlyIn.refl out w.files
    | some files =>
      obtain ⟨-, -, -, hfree, rfl⟩ := (write?_joinPath hway ha.noSlash a.contents).mp hwrite
      exact ChangesOnlyIn.insert ha hfree

/-- Writing artifacts into a directory writes only there, also if it fails. -/
theorem changesOnlyIn_writeArtifacts {artifacts : List Artifact}
    (h : ∀ a ∈ artifacts, IsArtifactName a.name) (out : String) (w : Workspace) :
    ChangesOnlyIn out w.files (outcome (writeArtifacts artifacts out) w).2.files := by
  have hmaking : ChangesOnlyIn out w.files (w.making out).files :=
    ChangesOnlyIn.of_grows (grows_makeDirectories w.files out)
  -- The directory alone may be made before the first artifact fails.
  cases hmade : (w.files.makeDirectories out).2 with
  | false =>
    rw [writeArtifacts_unmade hmade]
    exact hmaking
  | true =>
    have hstays : StaysIn out (artifacts.mapM (writeArtifact out)) :=
      StaysIn.mapM fun a ha => staysIn_writeArtifact out (h a ha)
    rw [(writeArtifacts_made hmade artifacts).1]
    exact hmaking.trans (hstays (w.making out) (directory_of_makeDirectories hmade))

/-- Compiling writes only in the directory it is given, whether it succeeds or not. -/
theorem changesOnlyIn_compile (c : Config) (paths : List String) (out : String) (w : Workspace) :
    ChangesOnlyIn out w.files (outcome (compile c paths out) w).2.files := by
  rcases described_or_first_error c w.files paths with
    hall | ⟨before, path, after, f, rfl, hbefore, hpath⟩
  · rw [outcome_compile hall]
    refine changesOnlyIn_writeArtifacts (fun a ha => ?_) out (w.announcing paths)
    refine isArtifactName_of_mem_firstsBy (fun b hb => ?_) ha
    -- each artifact comes from one of the files
    obtain ⟨d, hd, hemitted⟩ := List.mem_filterMap.mp hb
    obtain ⟨path, hpath, hdescriptor⟩ := List.mem_flatMap.mp hd
    exact isArtifactName_of_described (described_descriptorsOf (hall path hpath))
      (List.mem_filterMap.mpr ⟨d, hdescriptor, hemitted⟩)
  · have hstop := outcome_bind_error (f := (writeArtifacts · out))
      (outcome_collectArtifacts_error hbefore hpath after [])
    rw [compile, hstop]
    exact ChangesOnlyIn.refl out w.files

/-- Whatever the settings and the sources, artifacts have names that stand for one place in a
directory; and writing such artifacts, or compiling files, changes files at such places only. -/
theorem writes_only_in_directory (c : Config) :
    (∀ source origin artifacts, (generateSource c source origin).run.value = .ok artifacts →
      ∀ a ∈ artifacts, IsArtifactName a.name) ∧
    (∀ artifacts, (∀ a ∈ artifacts, IsArtifactName a.name) → ∀ out w,
      ChangesOnlyIn out w.files (outcome (writeArtifacts artifacts out) w).2.files) ∧
    ∀ paths out w, ChangesOnlyIn out w.files (outcome (compile c paths out) w).2.files := by
  refine ⟨?_, ?_, ?_⟩
  · intro source origin artifacts h
    exact isArtifactName_of_generateSource h
  · intro artifacts h out w
    exact changesOnlyIn_writeArtifacts h out w
  · intro paths out w
    exact changesOnlyIn_compile c paths out w

/-- A struct whose name has a letter with a small form of two characters, and one with a small form
in ASCII. -/
def accentFiles : FileSystem :=
  ⟨[(["a.rs"], .file "#[derive(propgroup::PropertyMap)] struct \u0130d\u212A \x7b a: u8 \x7d")]⟩

theorem writes_only_in_directory_accents :
    let name := "i\u0307d_k_extensions.rs"
    let w : Workspace := ⟨accentFiles, []⟩
    ∃ source a, accentFiles.read? "a.rs" = some source ∧
      (generateSource .default source "a.rs").run.value = .ok [a] ∧ a.name = name ∧
      IsArtifactName name ∧
      ChangesOnlyIn "gen/out" accentFiles (outcome (writeArtifacts [a] "gen/out") w).2.files ∧
      ChangesOnlyIn "gen/out" accentFiles
        (outcome (compile .default ["a.rs"] "gen/out") w).2.files ∧
      (outcome (compile .default ["a.rs"] "gen/out") w).2.files.entries.map Prod.fst =
        [["a.rs"], ["gen"], ["gen", "out"], ["gen", "out", name]] := by
  intro name w
  obtain ⟨source, hread⟩ : ∃ source, accentFiles.read? "a.rs" = some source := ⟨_, rfl⟩
  obtain ⟨hnames, hwrites, hcompiles⟩ := writes_only_in_directory .default
  -- The dotted capital is lowered to two characters, the kelvin sign to an ASCII letter.
  have hgenerated : ((accentFiles.read? "a.rs").bind fun source =>
      ((generateSource .default source "a.rs").run.value.toOption.map
        (List.map Artifact.name))) = some [name] := by
    decide +kernel
  rw [hread, Option.bind_some] at hgenerated
  cases hvalue : (generateSource .default source "a.rs").run.value with
  | error f =>
    rw [hvalue] at hgenerated
    cases hgenerated
  | ok artifacts =>
    rw [hvalue] at hgenerated
    obtain ⟨a, rfl, ha⟩ := List.map_eq_singleton_iff.mp (Option.some.inj hgenerated)
    have hname := hnames source "a.rs" [a] hvalue
    refine ⟨source, a, hread, hvalue, ha, ?_, hwrites [a] hname "gen/out" w,
      hcompiles ["a.rs"] "gen/out" w, by decide +kernel⟩
    rw [← ha]
    exact hname a List.mem_cons_self

end Memberwise
