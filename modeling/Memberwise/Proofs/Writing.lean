import Memberwise.Proofs.Commands
import Memberwise.Proofs.FileSystem

/-!
# Memberwise.Proofs.Writing — artifacts in a directory

Artifacts are written one after another into a directory. Writing one gives its file the contents of
the artifact and changes nothing else, or fails and changes nothing at all (`writeArtifact_cases`).
So in the end, and also if writing stops at some artifact, the artifacts before have their files
and the rest of the file system is as before (`storeAll_cases`); only directories on the way to the
one that is written to may be new.

Writing the same artifacts again finds all files as they should be, and so reports that and does
nothing (`storeAll_again`, `writeArtifacts_exact`).
-/

namespace Memberwise

open FileSystem

/-! ## Storing artifacts -/

/-- Artifacts have come into a directory that is there, and nothing else has changed. -/
structure Stored (out : String) (artifacts : List Artifact) (before after : FileSystem) : Prop where
  way : ∀ p ∈ wayTo out, after.get? p = some .directory
  contents : ∀ a ∈ artifacts, after.read? (joinPath out a.name) = some a.contents
  others : ∀ p, (∀ a ∈ artifacts, p ≠ directoryOf out ++ [a.name]) → after.get? p = before.get? p

namespace Stored

variable {out : String} {xs ys : List Artifact} {fs mid last : FileSystem}

theorem nil (h : ∀ p ∈ wayTo out, fs.get? p = some .directory) : Stored out [] fs fs :=
  ⟨h, by simp, fun _ _ => rfl⟩

/-- Artifacts with other names do not touch those that are there. -/
theorem append (hxs : Stored out xs fs mid) (hys : Stored out ys mid last)
    (hslash : ∀ a ∈ xs, '/' ∉ a.name.toList)
    (hdistinct : ∀ a ∈ xs, ∀ b ∈ ys, a.name ≠ b.name) : Stored out (xs ++ ys) fs last := by
  refine ⟨hys.way, ?_, ?_⟩
  · intro a ha
    rcases List.mem_append.mp ha with ha | ha
    · have hkept : last.get? (directoryOf out ++ [a.name]) =
          mid.get? (directoryOf out ++ [a.name]) :=
        hys.others _ fun b hb heq => hdistinct a ha b hb (by simpa using heq)
      have hmid := (read?_joinPath hxs.way (hslash a ha) a.contents).mp (hxs.contents a ha)
      refine (read?_joinPath hys.way (hslash a ha) a.contents).mpr ⟨hmid.1, hmid.2.1, ?_⟩
      exact hkept.trans hmid.2.2
    · exact hys.contents a ha
  · intro p hp
    rw [hys.others p fun b hb => hp b (List.mem_append_right _ hb),
      hxs.others p fun a ha => hp a (List.mem_append_left _ ha)]

end Stored

/-! ## Writing one artifact -/

section

variable {out : String} {a : Artifact} {w w' : Workspace}

/-- A file that holds its artifact is left as it is. -/
theorem writeArtifact_kept (h : w.files.read? (joinPath out a.name) = some a.contents) :
    outcome (writeArtifact out a) w = (.ok (joinPath out a.name), w) ∧
      reported (writeArtifact out a) w = [.artifactKept (joinPath out a.name)] := by
  have hget : outcome (get : Command Workspace) w = (.ok w, w) := rfl
  unfold writeArtifact
  rw [outcome_bind_ok hget, reported_bind_ok hget, if_pos h]
  exact ⟨rfl, rfl⟩

theorem writeArtifact_changed (h : w.files.read? (joinPath out a.name) ≠ some a.contents) :
    outcome (writeArtifact out a) w =
      match w.files.write? (joinPath out a.name) a.contents with
      | none => (.error (.write (joinPath out a.name)), w)
      | some files => (.ok (joinPath out a.name), { w with files := files }) := by
  have hget : outcome (get : Command Workspace) w = (.ok w, w) := rfl
  unfold writeArtifact
  rw [outcome_bind_ok hget, if_neg h]
  cases w.files.write? (joinPath out a.name) a.contents <;> rfl

theorem write_of_error {f : Fault} (h : outcome (writeArtifact out a) w = (.error f, w')) :
    f = .write (joinPath out a.name) := by
  by_cases hkept : w.files.read? (joinPath out a.name) = some a.contents
  · rw [(writeArtifact_kept hkept).1] at h
    cases h
  · rw [writeArtifact_changed hkept] at h
    split at h <;> cases h
    rfl

/-- Writing an artifact stores it, or fails and leaves everything as it is. -/
theorem writeArtifact_cases (hway : ∀ p ∈ wayTo out, w.files.get? p = some .directory)
    (hslash : '/' ∉ a.name.toList) :
    (∃ w', outcome (writeArtifact out a) w = (.ok (joinPath out a.name), w') ∧
        Stored out [a] w.files w'.files ∧ w'.printed = w.printed) ∨
      outcome (writeArtifact out a) w = (.error (.write (joinPath out a.name)), w) ∧
        w.files.write? (joinPath out a.name) a.contents = none := by
  by_cases hkept : w.files.read? (joinPath out a.name) = some a.contents
  · have hstored : Stored out [a] w.files w.files := ⟨hway, by simpa using hkept, fun _ _ => rfl⟩
    exact Or.inl ⟨w, (writeArtifact_kept hkept).1, hstored, rfl⟩
  · have hchanged := writeArtifact_changed hkept
    cases hwrite : w.files.write? (joinPath out a.name) a.contents with
    | none =>
      rw [hwrite] at hchanged
      exact Or.inr ⟨hchanged, rfl⟩
    | some files =>
      rw [hwrite] at hchanged
      rcases (write?_joinPath hway hslash a.contents).mp hwrite with
        ⟨husable, hentry, -, hfree, rfl⟩
      refine Or.inl ⟨_, hchanged, ?_, rfl⟩
      -- the directories on the way are not where the file goes
      have hway' : ∀ p ∈ wayTo out,
          (w.files.insert (directoryOf out ++ [a.name]) (.file a.contents)).get? p =
            some .directory := by
        intro p hp
        have hne : p ≠ directoryOf out ++ [a.name] := by
          rintro rfl
          exact hfree (hway _ hp)
        rw [get?_insert_of_ne hne, hway p hp]
      refine ⟨hway', ?_, fun p hp => get?_insert_of_ne (hp a List.mem_cons_self) _ _⟩
      intro b hb
      rw [List.mem_singleton.mp hb]
      exact (read?_joinPath hway' hslash a.contents).mpr
        ⟨husable, hentry, get?_insert_self hfree _⟩

end

/-! ## Writing artifacts one after another -/

section

variable {out : String} {artifacts : List Artifact} {w : Workspace}

/-- Writing artifacts stores all of them, or those before one that cannot be written. The induction
is on the artifacts; what is stored first stays, since the names are distinct. -/
theorem storeAll_cases (hway : ∀ p ∈ wayTo out, w.files.get? p = some .directory)
    (hslash : ∀ a ∈ artifacts, '/' ∉ a.name.toList)
    (hdistinct : (artifacts.map Artifact.name).Nodup) :
    (∃ w', outcome (artifacts.mapM (writeArtifact out)) w =
          (.ok (artifacts.map fun a => joinPath out a.name), w') ∧
        Stored out artifacts w.files w'.files ∧ w'.printed = w.printed) ∨
      ∃ done a rest w', artifacts = done ++ a :: rest ∧
        outcome (artifacts.mapM (writeArtifact out)) w =
          (.error (.write (joinPath out a.name)), w') ∧
        Stored out done w.files w'.files ∧ w'.printed = w.printed ∧
        w'.files.write? (joinPath out a.name) a.contents = none := by
  induction artifacts generalizing w with
  | nil => exact Or.inl ⟨w, rfl, Stored.nil hway, rfl⟩
  | cons a artifacts ih =>
    have hslash' : ∀ b ∈ artifacts, '/' ∉ b.name.toList :=
      fun b hb => hslash b (List.mem_cons_of_mem _ hb)
    rw [List.map_cons, List.nodup_cons] at hdistinct
    have hothers : ∀ b ∈ artifacts, a.name ≠ b.name :=
      fun b hb heq => hdistinct.1 (heq ▸ List.mem_map_of_mem hb)
    rw [List.mapM_cons]
    rcases writeArtifact_cases hway (hslash a List.mem_cons_self) with
      ⟨mid, hfirst, hstored, hprinted⟩ | ⟨hfirst, hnone⟩
    · rw [outcome_bind_ok hfirst]
      -- what the first artifact stored is not touched by the others
      have happend : ∀ {done last}, (∀ b ∈ done, b ∈ artifacts) →
          Stored out done mid.files last → Stored out (a :: done) w.files last := by
        intro done last hdone hlast
        refine hstored.append hlast (by simpa using hslash a List.mem_cons_self) ?_
        intro b hb c hc
        rw [List.mem_singleton.mp hb]
        exact hothers c (hdone c hc)
      rcases ih hstored.way hslash' hdistinct.2 with
        ⟨last, hall, hstored', hprinted'⟩ |
        ⟨done, b, rest, last, heq, hall, hstored', hprinted', hnone⟩
      · refine Or.inl ⟨last, ?_, happend (fun _ hb => hb) hstored', hprinted'.trans hprinted⟩
        rw [outcome_bind_ok hall]
        rfl
      · refine Or.inr ⟨a :: done, b, rest, last, by rw [heq, List.cons_append], ?_,
          happend (fun c hc => heq ▸ List.mem_append_left _ hc) hstored', hprinted'.trans hprinted,
          hnone⟩
        rw [outcome_bind_error hall]
    · exact Or.inr
        ⟨[], a, artifacts, w, rfl, outcome_bind_error hfirst, Stored.nil hway, rfl, hnone⟩

/-- Artifacts that are all there are found to be there, and nothing is done. -/
theorem storeAll_again
    (h : ∀ a ∈ artifacts, w.files.read? (joinPath out a.name) = some a.contents) :
    outcome (artifacts.mapM (writeArtifact out)) w =
        (.ok (artifacts.map fun a => joinPath out a.name), w) ∧
      reported (artifacts.mapM (writeArtifact out)) w =
        artifacts.map fun a => .artifactKept (joinPath out a.name) := by
  induction artifacts with
  | nil => exact ⟨rfl, rfl⟩
  | cons a artifacts ih =>
    have hfirst := writeArtifact_kept (h a List.mem_cons_self)
    have hrest := ih fun b hb => h b (List.mem_cons_of_mem _ hb)
    rw [List.mapM_cons, outcome_bind_ok hfirst.1, reported_bind_ok hfirst.1,
      outcome_bind_ok hrest.1, reported_bind_ok hrest.1, hfirst.2, hrest.2]
    exact ⟨rfl, by simp; rfl⟩

end

/-! ## Writing artifacts into a directory -/

/-- Artifacts are in their files in a directory, and nothing else has changed, except that
directories on the way to that one may have been made where nothing was. -/
structure Written (out : String) (artifacts : List Artifact) (before after : FileSystem) :
    Prop where
  contents : ∀ a ∈ artifacts, after.read? (joinPath out a.name) = some a.contents
  others : ∀ p, (∀ a ∈ artifacts, p ≠ directoryOf out ++ [a.name]) →
    after.get? p = before.get? p ∨
      p ∈ wayTo out ∧ before.get? p = none ∧ after.get? p = some .directory

section

variable {out : String} {artifacts : List Artifact} {w : Workspace}

theorem Stored.written {fs mid last : FileSystem} (hgrows : fs.Grows (wayTo out) mid)
    (h : Stored out artifacts mid last) : Written out artifacts fs last := by
  refine ⟨h.contents, fun p hp => ?_⟩
  rw [h.others p hp]
  exact hgrows p

/-- The workspace with a directory made, or with what was made before that failed. -/
def Workspace.making (w : Workspace) (out : String) : Workspace :=
  { w with files := (w.files.makeDirectories out).1 }

theorem writeArtifacts_made (h : (w.files.makeDirectories out).2 = true)
    (artifacts : List Artifact) :
    outcome (writeArtifacts artifacts out) w =
        outcome (artifacts.mapM (writeArtifact out)) (w.making out) ∧
      reported (writeArtifacts artifacts out) w =
        reported (artifacts.mapM (writeArtifact out)) (w.making out) := by
  have hget : outcome (get : Command Workspace) w = (.ok w, w) := rfl
  have hset : outcome (set (w.making out) : Command Unit) w = (.ok (), w.making out) := rfl
  unfold writeArtifacts
  rw [outcome_bind_ok hget, reported_bind_ok hget]
  simp only [h, if_true]
  rw [← Workspace.making, outcome_bind_ok hset, reported_bind_ok hset]
  exact ⟨rfl, rfl⟩

theorem writeArtifacts_unmade (h : (w.files.makeDirectories out).2 = false)
    (artifacts : List Artifact) :
    outcome (writeArtifacts artifacts out) w = (.error (.write out), w.making out) := by
  have hget : outcome (get : Command Workspace) w = (.ok w, w) := rfl
  unfold writeArtifacts
  rw [outcome_bind_ok hget]
  simp only [h]
  rfl

/-- Whatever the names of the artifacts, writing can fail in one way only. -/
theorem exists_write_of_error {f : Fault} {w' : Workspace}
    (h : outcome (writeArtifacts artifacts out) w = (.error f, w')) : ∃ path, f = .write path := by
  -- Either the directory fails, or the first artifact that cannot be written.
  cases hmade : (w.files.makeDirectories out).2 with
  | false =>
    rw [writeArtifacts_unmade hmade] at h
    cases h
    exact ⟨out, rfl⟩
  | true =>
    rw [(writeArtifacts_made hmade artifacts).1] at h
    generalize w.making out = w at h
    -- Induction on the artifacts, with the workspace as the earlier ones left it.
    induction artifacts generalizing w with
    | nil => cases h
    | cons a artifacts ih =>
      rw [List.mapM_cons, outcome_bind_eq_iff] at h
      rcases h with ⟨path, mid, -, hrest⟩ | ⟨e, mid, hfirst, heq⟩
      · rw [outcome_bind_eq_iff] at hrest
        rcases hrest with ⟨paths, last, -, hpure⟩ | ⟨e, last, hall, heq⟩
        · cases hpure
        · cases heq
          exact ih mid hall
      · cases heq
        exact ⟨_, write_of_error hfirst⟩

/-- Writing artifacts with distinct names into a directory ends in one of three ways. All artifacts
are written; then writing them again changes nothing, and reports only that they are there. Or the
directory cannot be made, and no file has changed. Or one artifact cannot be written, and those
before it are. -/
theorem writeArtifacts_exact (artifacts : List Artifact) (out : String) (w : Workspace)
    (hslash : ∀ a ∈ artifacts, '/' ∉ a.name.toList)
    (hdistinct : (artifacts.map Artifact.name).Nodup) :
    (∃ w', outcome (writeArtifacts artifacts out) w =
          (.ok (artifacts.map fun a => joinPath out a.name), w') ∧
        Written out artifacts w.files w'.files ∧
        outcome (writeArtifacts artifacts out) w' =
          (.ok (artifacts.map fun a => joinPath out a.name), w') ∧
        reported (writeArtifacts artifacts out) w' =
          artifacts.map fun a => .artifactKept (joinPath out a.name)) ∨
      (∃ w', outcome (writeArtifacts artifacts out) w = (.error (.write out), w') ∧
        Written out [] w.files w'.files ∧ (w.files.makeDirectories out).2 = false) ∨
      ∃ done a rest w', artifacts = done ++ a :: rest ∧
        outcome (writeArtifacts artifacts out) w = (.error (.write (joinPath out a.name)), w') ∧
        Written out done w.files w'.files ∧
        w'.files.write? (joinPath out a.name) a.contents = none := by
  have hgrows := grows_makeDirectories w.files out
  cases hmade : (w.files.makeDirectories out).2 with
  | false =>
    have hwritten : Written out [] w.files (w.making out).files := ⟨by simp, fun p _ => hgrows p⟩
    exact Or.inr (Or.inl ⟨_, writeArtifacts_unmade hmade artifacts, hwritten, rfl⟩)
  | true =>
    have hway : ∀ p ∈ wayTo out, (w.making out).files.get? p = some .directory :=
      directory_of_makeDirectories hmade
    rw [(writeArtifacts_made hmade artifacts).1]
    rcases storeAll_cases hway hslash hdistinct with
      ⟨w', hall, hstored, -⟩ | ⟨done, a, rest, w', heq, hall, hstored, -, hnone⟩
    -- everything is there now, so a second run neither makes a directory nor writes a file
    · have hagain := makeDirectories_of_directory hmade hstored.way
      have hsame : w'.making out = w' := by rw [Workspace.making, hagain]
      have hmade' := writeArtifacts_made (w := w') (by rw [hagain]) artifacts
      have hkept := storeAll_again hstored.contents
      rw [hsame] at hmade'
      exact Or.inl ⟨w', hall, hstored.written hgrows, hmade'.1.trans hkept.1,
        hmade'.2.trans hkept.2⟩
    · exact Or.inr (Or.inr ⟨done, a, rest, w', heq, hall, hstored.written hgrows, hnone⟩)

end

/-- A directory with one file that is out of date and one that is not, and a file beside it. -/
def staleFiles : FileSystem :=
  ⟨[(["gen"], .directory), (["gen", "a.rs"], .file "old"), (["gen", "b.rs"], .file "two"),
    (["keep.txt"], .file "kept")]⟩

/-- Artifacts for that directory. -/
def freshArtifacts : List Artifact := [⟨"a.rs", "one"⟩, ⟨"b.rs", "two"⟩, ⟨"c.rs", "three"⟩]

theorem writeArtifacts_exact_stale :
    (∀ a ∈ freshArtifacts, '/' ∉ a.name.toList) ∧ (freshArtifacts.map Artifact.name).Nodup ∧
      ∃ w', outcome (writeArtifacts freshArtifacts "gen") ⟨staleFiles, []⟩ =
          (.ok ["gen/a.rs", "gen/b.rs", "gen/c.rs"], w') ∧
        Written "gen" freshArtifacts staleFiles w'.files ∧
        w'.files.get? ["keep.txt"] = some (.file "kept") ∧
        reported (writeArtifacts freshArtifacts "gen") w' =
          [.artifactKept "gen/a.rs", .artifactKept "gen/b.rs", .artifactKept "gen/c.rs"] := by
  have hslash : ∀ a ∈ freshArtifacts, '/' ∉ a.name.toList := by decide
  have hdistinct : (freshArtifacts.map Artifact.name).Nodup := by decide
  have hpaths : (freshArtifacts.map fun a => joinPath "gen" a.name) =
      ["gen/a.rs", "gen/b.rs", "gen/c.rs"] := by decide +kernel
  have hok : (outcome (writeArtifacts freshArtifacts "gen") ⟨staleFiles, []⟩).1.toOption =
      some ["gen/a.rs", "gen/b.rs", "gen/c.rs"] := by decide +kernel
  refine ⟨hslash, hdistinct, ?_⟩
  rcases writeArtifacts_exact freshArtifacts "gen" ⟨staleFiles, []⟩ hslash hdistinct with
    ⟨w', hall, hwritten, -, hagain⟩ | ⟨w', hfail, -⟩ | ⟨_, _, _, w', -, hfail, -⟩
  · refine ⟨w', hpaths ▸ hall, hwritten, ?_, ?_⟩
    · rcases hwritten.others ["keep.txt"] (by decide +kernel) with hsame | ⟨-, hnone, -⟩
      · rw [hsame]
        rfl
      · cases hnone
    · rw [hagain]
      decide +kernel
  · rw [hfail] at hok
    cases hok
  · rw [hfail] at hok
    cases hok

end Memberwise
