import Memberwise.FileSystem
import Memberwise.Proofs.Pieces

/-!
# Memberwise.Proofs.FileSystem — what is at a place, and how it changes

A file system is seen through `get?`, which says what is at each place. Putting an entry changes one
place (`get?_insert_self`, `get?_insert_of_ne`). Making directories only adds directories, and only
on the way to the one that is asked for (`grows_makeDirectories`); what was there stays.

A file name without a slash names a place in the directory that it is joined to. Once that directory
is there, reading and writing the joined path is reading and writing at that place
(`read?_joinPath`, `write?_joinPath`).
-/

namespace Memberwise

/-! ## Joined paths -/

/-- A name without slashes is one piece. -/
theorem pathPieces_of_notMem {name : String} (h : '/' ∉ name.toList) :
    pathPieces name = [name] := by
  rw [pathPieces, splitAt_of_notMem]
  · simp
  · intro c hc
    exact beq_eq_false_iff_ne.mpr fun heq => h (heq ▸ hc)

/-- A name behind a slash is one more piece. -/
theorem pathPieces_append_slash (base : List Char) {name : String} (h : '/' ∉ name.toList) :
    pathPieces (String.ofList base ++ "/" ++ name) = pathPieces (String.ofList base) ++ [name] := by
  rw [← pathPieces_of_notMem h]
  unfold pathPieces
  rw [← List.map_append]
  congr 1
  simpa using splitAt_append_cons (p := (· == '/')) rfl base name.toList

/-- A name that is joined to a path is its last piece; before it stand the pieces of the path,
perhaps without an empty one at the end. -/
theorem pathPieces_joinPath (out : String) {name : String} (h : '/' ∉ name.toList) :
    ∃ pieces, pathPieces (joinPath out name) = pieces ++ [name] ∧
      (pathPieces out = pieces ∨ pathPieces out = pieces ++ [""]) := by
  have hhead : name.toList.head? ≠ some '/' := fun hhead => h (List.mem_of_mem_head? hhead)
  unfold joinPath
  by_cases hempty : out = ""
  · refine ⟨[], ?_, Or.inr ?_⟩
    · simpa [hempty] using pathPieces_of_notMem h
    · simp [hempty, pathPieces, Text.splitAt]
  · simp only [hhead, decide_false, Bool.false_or, String.isEmpty_iff, hempty, if_false]
    split
    · next hlast =>
      -- the slash at the end divides the path from the name
      rcases List.getLast?_eq_some_iff.mp hlast with ⟨base, hbase⟩
      have hout : out = String.ofList base ++ "/" := by
        rw [← String.toList_inj, hbase]
        simp
      refine ⟨pathPieces (String.ofList base), ?_, Or.inr ?_⟩
      · rw [hout]
        exact pathPieces_append_slash base h
      · rw [hout]
        have hnone : '/' ∉ "".toList := by simp
        simpa using pathPieces_append_slash base hnone
    · refine ⟨pathPieces out, ?_, Or.inl rfl⟩
      have hout : out = String.ofList out.toList := by simp
      rw [hout]
      exact pathPieces_append_slash out.toList h

/-- A name in a directory is absolute exactly if the directory is. -/
theorem head?_joinPath (out : String) {name : String} (h : '/' ∉ name.toList) :
    (joinPath out name).toList.head? = some '/' ↔ out.toList.head? = some '/' := by
  have hhead : name.toList.head? ≠ some '/' := fun hhead => h (List.mem_of_mem_head? hhead)
  unfold joinPath
  by_cases hempty : out = ""
  · simpa [hempty] using hhead
  · obtain ⟨c, cs, hout⟩ := List.exists_cons_of_ne_nil (l := out.toList) (by simpa using hempty)
    simp only [hhead, decide_false, Bool.false_or, String.isEmpty_iff, hempty, if_false]
    split <;> simp [hout]

/-- Whether a piece of a path is a name to follow. -/
def isStep (name : String) : Bool := name != "" && name != "."

/-- The way to a name in a directory is that to the directory, and one step more. -/
theorem routeNames_joinPath (out : String) {name : String} (h : '/' ∉ name.toList) :
    routeNames (joinPath out name) = routeNames out ++ [name].filter isStep := by
  rcases pathPieces_joinPath out h with ⟨pieces, hjoined, hout⟩
  have hsteps : (pathPieces out).filter isStep = pieces.filter isStep := by
    rcases hout with hout | hout
    · rw [hout]
    · simp [hout, isStep]
  unfold routeNames
  rw [show (fun n : String => n != "" && n != ".") = isStep from rfl, hsteps, hjoined,
    List.filter_append, ← List.append_assoc]
  simp only [head?_joinPath out h]

/-- A joined path ends in the name, unless the name is empty or a point. -/
theorem endingOf_joinPath (out : String) {name : String} (h : '/' ∉ name.toList) :
    endingOf (pathPieces (joinPath out name)) = .name ↔ isStep name = true := by
  rcases pathPieces_joinPath out h with ⟨pieces, hjoined, -⟩
  rw [hjoined, endingOf, List.filter_append, List.getLast?_concat]
  by_cases hempty : name = ""
  · simp only [hempty, isStep]
    split <;> simp
  · by_cases hpoint : name = "."
    · simp [hpoint, isStep]
    · simp [hempty, hpoint, isStep]

/-! ## Entries -/

namespace FileSystem

variable {fs grown : FileSystem} {place : List String}

/-- An entry that is replaced is found at its place, and the others where they were. -/
theorem lookup_replace (place other : List String) (e : Entry)
    (entries : List (List String × Entry)) :
    (entries.map fun (p, old) => (p, if p == place then e else old)).lookup other =
      if other = place then (entries.lookup other).map fun _ => e else entries.lookup other := by
  induction entries with
  | nil => simp
  | cons entry entries ih =>
    rcases entry with ⟨p, old⟩
    rw [List.map_cons, List.lookup_cons, List.lookup_cons, ih]
    by_cases hother : other = p
    · subst hother
      by_cases hplace : other = place <;> simp [hplace]
    · simp [beq_eq_false_iff_ne.mpr hother]

/-- An entry that is put somewhere is found there, and the others where they were. -/
theorem lookup_insert (fs : FileSystem) (place other : List String) (e : Entry) :
    (fs.insert place e).entries.lookup other =
      if other = place then some e else fs.entries.lookup other := by
  -- A place that is there already is replaced, a new one comes last.
  unfold insert
  split
  · next hsome =>
    rw [lookup_replace]
    split
    · next heq =>
      rcases Option.isSome_iff_exists.mp hsome with ⟨old, hold⟩
      simp [heq, hold]
    · rfl
  · next hnone =>
    rw [Option.not_isSome_iff_eq_none] at hnone
    rw [List.lookup_append]
    split
    · next heq => simp [heq, hnone]
    · next hne => simp [List.lookup_cons, beq_eq_false_iff_ne.mpr hne]

/-- Nothing changes at another place. -/
theorem get?_insert_of_ne {other : List String} (h : other ≠ place) (fs : FileSystem) (e : Entry) :
    (fs.insert place e).get? other = fs.get? other := by
  unfold get?
  rw [lookup_insert, if_neg h]

/-- What is put somewhere is there, unless a directory was. -/
theorem get?_insert_self (h : fs.get? place ≠ some .directory) (e : Entry) :
    (fs.insert place e).get? place = some e := by
  unfold get? at h ⊢
  rw [lookup_insert, if_pos rfl]
  split
  · next hthere => simp [hthere] at h
  · rfl

/-! ## Directories that are made -/

/-- The places that names lead to one after another, without the one where they start. -/
def stops (place : List String) : List String → List (List String)
  | [] => []
  | name :: names => enter place name :: stops (enter place name) names

/-- The places along two ways in a row are those of each. -/
theorem stops_append (place : List String) (xs ys : List String) :
    stops place (xs ++ ys) = stops place xs ++ stops (xs.foldl enter place) ys := by
  induction xs generalizing place with
  | nil => rfl
  | cons x xs ih => simp [stops, ih]

/-- Some directories have come, all of them at given places, and nothing else has changed. -/
def Grows (fs : FileSystem) (places : List (List String)) (grown : FileSystem) : Prop :=
  ∀ p, grown.get? p = fs.get? p ∨
    p ∈ places ∧ fs.get? p = none ∧ grown.get? p = some .directory

namespace Grows

variable {places more : List (List String)} {last : FileSystem}

/-- Nothing has to grow. -/
theorem refl (fs : FileSystem) (places : List (List String)) : fs.Grows places fs :=
  fun _ => Or.inl rfl

/-- What has grown at some places has grown at more of them. -/
theorem mono (h : fs.Grows places grown) (hmore : places ⊆ more) : fs.Grows more grown :=
  fun p => (h p).imp id fun ⟨hp, hbefore, hafter⟩ => ⟨hmore hp, hbefore, hafter⟩

/-- What is there stays. -/
theorem get?_eq_some (h : fs.Grows places grown) {p : List String} {e : Entry}
    (hp : fs.get? p = some e) : grown.get? p = some e := by
  rcases h p with hsame | ⟨-, hnone, -⟩
  · rw [hsame, hp]
  · rw [hnone] at hp
    cases hp

/-- What has grown twice has grown. -/
theorem trans (h : fs.Grows places grown) (h' : grown.Grows places last) :
    fs.Grows places last := by
  intro p
  rcases h p with hsame | ⟨hp, hbefore, hafter⟩
  · rw [← hsame]
    exact h' p
  · exact Or.inr ⟨hp, hbefore, h'.get?_eq_some hafter⟩

/-- A new directory makes the files grow where nothing was. -/
theorem insert (h : fs.get? place = none) : fs.Grows [place] (fs.insert place .directory) := by
  intro p
  by_cases hp : p = place
  · subst hp
    exact Or.inr ⟨by simp, h, get?_insert_self (by simp [h]) _⟩
  · exact Or.inl (get?_insert_of_ne hp fs _)

end Grows

/-- Making directories along a way makes the files grow along it. -/
theorem grows_makeFrom (fs : FileSystem) (place : List String) (names : List String) :
    fs.Grows (stops place names) (fs.makeFrom place names).1 := by
  -- Induction on the names still to be entered; the place moves along with them.
  induction names generalizing fs place with
  | nil => exact Grows.refl fs _
  | cons name names ih =>
    have hrest : stops (enter place name) names ⊆ stops place (name :: names) :=
      List.subset_cons_self _ _
    rw [makeFrom]
    split
    · exact (ih fs (enter place name)).mono hrest
    · exact Grows.refl fs _
    · next hnone =>
      -- The place is missing: it is made if the name can be an entry's, and left alone otherwise.
      split
      · have hmade : fs.Grows (stops place (name :: names))
            (fs.insert (enter place name) .directory) :=
          (Grows.insert hnone).mono (by simp [stops])
        exact hmade.trans ((ih _ (enter place name)).mono hrest)
      · exact Grows.refl fs _

/-- If making directories succeeds, each place on the way is a directory. -/
theorem directory_of_makeFrom {names : List String} (h : (fs.makeFrom place names).2 = true) :
    ∀ p ∈ stops place names, (fs.makeFrom place names).1.get? p = some .directory := by
  induction names generalizing fs place with
  | nil => simp [stops]
  | cons name names ih =>
    intro p hp
    rw [makeFrom] at h ⊢
    -- What the rest of the way makes never takes away what stands here.
    have hgrown := fun gs : FileSystem => grows_makeFrom gs (enter place name) names
    split at h
    · next hthere =>
      rcases List.mem_cons.mp hp with rfl | hp
      · exact (hgrown fs).get?_eq_some hthere
      · exact ih h p hp
    · cases h
    · next hnone =>
      split at h
      · next hname =>
        simp only [hname, if_true]
        rcases List.mem_cons.mp hp with rfl | hp
        · exact (hgrown _).get?_eq_some (get?_insert_self (by simp [hnone]) _)
        · exact ih h p hp
      · cases h

/-- Where all directories are there, none is made. -/
theorem makeFrom_of_directory {names : List String}
    (h : ∀ p ∈ stops place names, fs.get? p = some .directory) :
    fs.makeFrom place names = (fs, true) := by
  induction names generalizing place with
  | nil => rfl
  | cons name names ih =>
    rw [makeFrom, h _ List.mem_cons_self]
    exact ih fun p hp => h p (List.mem_cons_of_mem _ hp)

/-- Two ways in a row are followed one after the other. -/
theorem follow?_append (fs : FileSystem) (place : List String) (xs ys : List String) :
    fs.follow? place (xs ++ ys) = (fs.follow? place xs).bind fun p => fs.follow? p ys := by
  induction xs generalizing place with
  | nil => rfl
  | cons x xs ih =>
    rw [List.cons_append, follow?, follow?]
    split
    · exact ih (enter place x)
    · rfl

/-- Names lead to their last stop, and that is a directory, if all stops are. -/
theorem follow?_of_directory {names : List String} (hplace : fs.get? place = some .directory)
    (h : ∀ p ∈ stops place names, fs.get? p = some .directory) :
    fs.follow? place names = some (names.foldl enter place) ∧
      fs.get? (names.foldl enter place) = some .directory := by
  induction names generalizing place with
  | nil => exact ⟨rfl, hplace⟩
  | cons name names ih =>
    rw [follow?, if_pos hplace]
    exact ih (h _ List.mem_cons_self) fun p hp => h p (List.mem_cons_of_mem _ hp)

/-- The last name leads on from the directory that the others lead to. -/
theorem follow?_concat {names : List String}
    (h : ∀ p ∈ stops [] names, fs.get? p = some .directory) (name : String) :
    fs.follow? [] (names ++ [name]) = some (enter (names.foldl enter []) name) := by
  rcases follow?_of_directory rfl h with ⟨hfollow, hthere⟩
  rw [follow?_append, hfollow, Option.bind_some, follow?, if_pos hthere, follow?]

/-- The place of the directory that a path asks for. -/
def directoryOf (path : String) : List String := (routeNames path).foldl enter []

/-- The places on the way to a directory, with its own. -/
def wayTo (path : String) : List (List String) := stops [] (routeNames path)

/-- The way to the last name but one goes over places of the whole way. -/
theorem stops_dropLast_subset (place : List String) (names : List String) :
    stops place names.dropLast ⊆ stops place names := by
  rcases List.eq_nil_or_concat names with rfl | ⟨init, last, rfl⟩
  · exact List.Subset.refl _
  · rw [List.concat_eq_append, List.dropLast_concat, stops_append]
    exact List.subset_append_left _ _

/-- Making the directories of a path makes the files grow on the way to it. -/
theorem grows_makeDirectories (fs : FileSystem) (path : String) :
    fs.Grows (wayTo path) (fs.makeDirectories path).1 := by
  unfold makeDirectories Route.ofPath?
  split
  · exact Grows.refl fs _
  · by_cases husable : isUsablePath path = true
    · simp only [husable, if_true]
      split
      · exact (grows_makeFrom fs [] _).mono (stops_dropLast_subset [] _)
      · exact grows_makeFrom fs [] (routeNames path)
    · simp only [husable, Bool.false_eq_true, if_false]
      exact Grows.refl fs _

/-- If the directories before the last are there and the names lead to a directory, the last is
there as well. -/
theorem directory_of_hasDirectory {names : List String}
    (h : ∀ p ∈ stops [] names.dropLast, fs.get? p = some .directory)
    (hlast : fs.hasDirectory names = true) : ∀ p ∈ stops [] names, fs.get? p = some .directory := by
  -- The last place is looked at by itself, the others are known to be directories.
  rcases List.eq_nil_or_concat names with rfl | ⟨init, last, rfl⟩
  · exact h
  · rw [List.concat_eq_append] at h hlast ⊢
    rw [List.dropLast_concat] at h
    rw [hasDirectory, follow?_concat h, Option.any_some, beq_iff_eq] at hlast
    intro p hp
    rw [stops_append, List.mem_append] at hp
    rcases hp with hp | hp
    · exact h p hp
    · rw [List.mem_singleton.mp hp]
      exact hlast

/-- If a directory is made, each place on the way to it is a directory. -/
theorem directory_of_makeDirectories {path : String} (h : (fs.makeDirectories path).2 = true) :
    ∀ p ∈ wayTo path, (fs.makeDirectories path).1.get? p = some .directory := by
  unfold makeDirectories Route.ofPath? at h ⊢
  split at h
  -- The empty path makes nothing and has no way to stand on.
  · next hempty =>
    rw [String.isEmpty_iff] at hempty
    subst hempty
    simp [wayTo, routeNames, pathPieces, Text.splitAt, stops]
  · next hempty =>
    by_cases husable : isUsablePath path = true
    · simp only [husable, hempty, if_true, if_false, Bool.false_eq_true] at h ⊢
      split at h
      -- A path that ends in a point needs its last place to be a directory.
      · next hpoint =>
        simp only [Bool.and_eq_true] at h
        simp only [hpoint, if_true]
        exact directory_of_hasDirectory (directory_of_makeFrom h.1) h.2
      · next hpoint =>
        simp only [hpoint, if_false]
        exact directory_of_makeFrom h
    · simp [husable] at h

/-- A directory that could be made is made again without a change, where the way to it is there. -/
theorem makeDirectories_of_directory {path : String} (h : (grown.makeDirectories path).2 = true)
    (hway : ∀ p ∈ wayTo path, fs.get? p = some .directory) :
    fs.makeDirectories path = (fs, true) := by
  unfold makeDirectories Route.ofPath? at h ⊢
  split at h
  · next hempty => simp [hempty]
  · next hempty =>
    by_cases husable : isUsablePath path = true
    · have hroot : fs.get? [] = some .directory := rfl
      have hfollow := follow?_of_directory hroot hway
      have hinit := makeFrom_of_directory fun p hp => hway p (stops_dropLast_subset [] _ hp)
      simp [husable, hempty, makeFrom_of_directory hway, hinit, hasDirectory, hfollow.1, hfollow.2]
    · simp [husable] at h

/-! ## Files in a directory -/

/-- A place that is a directory, as are all those around it. -/
def Settled (fs : FileSystem) (place : List String) : Prop :=
  ∀ p, p <+: place → fs.get? p = some .directory

/-- At an outermost place everything around is there. -/
theorem settled_of_isOutermost (h : isOutermost place = true) : fs.Settled place := by
  intro p hp
  have houtermost : isOutermost p = true := by
    rw [isOutermost, List.all_eq_true] at h ⊢
    exact fun name hname => h name (hp.subset hname)
  simp [get?, houtermost]

/-- What is around a settled place is settled. -/
theorem Settled.around (h : fs.Settled place) : fs.Settled (around place) := by
  unfold Memberwise.around
  split
  · exact h
  · split
    · next houtermost =>
      apply settled_of_isOutermost
      simpa [isOutermost] using houtermost
    · exact fun p hp => h p (hp.trans (List.dropLast_prefix place))

/-- A directory in a settled place is settled. -/
theorem Settled.enter (h : fs.Settled place) {name : String}
    (hthere : fs.get? (enter place name) = some .directory) : fs.Settled (enter place name) := by
  unfold Memberwise.enter at hthere ⊢
  split at hthere
  · next hup =>
    rw [if_pos hup]
    exact h.around
  · next hdown =>
    rw [if_neg hdown]
    intro p hp
    rcases List.prefix_concat_iff.mp hp with heq | hp
    · rw [heq, hthere]
    · exact h p hp

/-- A way through directories leads from a settled place to a settled place. -/
theorem Settled.foldl_enter (h : fs.Settled place) {names : List String}
    (hthere : ∀ p ∈ stops place names, fs.get? p = some .directory) :
    fs.Settled (names.foldl Memberwise.enter place) := by
  induction names generalizing place with
  | nil => exact h
  | cons name names ih =>
    exact ih (h.enter (hthere _ List.mem_cons_self))
      fun p hp => hthere p (List.mem_cons_of_mem _ hp)

/-- A path is read exactly if it can be used, ends in a name, and leads to a file. -/
theorem read?_eq_some_iff {path text : String} :
    fs.read? path = some text ↔
      isUsablePath path = true ∧ endingOf (pathPieces path) = .name ∧
        ∃ p, fs.follow? [] (routeNames path) = some p ∧ fs.get? p = some (.file text) := by
  unfold read? Route.ofPath?
  -- Reading fails on the path, on the way, or on what stands at its end.
  cases isUsablePath path with
  | false => simp
  | true =>
    cases hfollow : fs.follow? [] (routeNames path) with
    | none => simp [hfollow]
    | some p =>
      cases hentry : fs.get? p with
      | none => simp [hfollow, hentry]
      | some e => cases e <;> simp [hfollow, hentry]

/-- A path is written exactly if it can be used, ends in a file name, and leads to no directory. -/
theorem write?_eq_some_iff {path text : String} :
    fs.write? path text = some grown ↔
      isUsablePath path = true ∧ endingOf (pathPieces path) = .name ∧
        ∃ p, fs.follow? [] (routeNames path) = some p ∧ p.getLast?.all isFileName = true ∧
          fs.get? p ≠ some .directory ∧ fs.insert p (.file text) = grown := by
  unfold write? Route.ofPath?
  cases isUsablePath path with
  | false => simp
  | true =>
    cases hfollow : fs.follow? [] (routeNames path) with
    | none => simp [hfollow]
    | some p => simp [hfollow, and_assoc]

/-- Whether a name can be that of an entry in a directory. -/
def isEntryName (name : String) : Bool := isStep name && name != ".."

section

variable {out name : String} (hway : ∀ p ∈ wayTo out, fs.get? p = some .directory)
include hway

/-- Only a name of an entry can lead to something that is no directory. -/
theorem isEntryName_of_enter (hstep : isStep name = true)
    (h : fs.get? (enter (directoryOf out) name) ≠ some .directory) : isEntryName name = true := by
  by_cases hup : name = ".."
  · have hroot : fs.Settled [] := settled_of_isOutermost rfl
    have hsettled : fs.Settled (directoryOf out) := hroot.foldl_enter hway
    refine absurd ?_ h
    rw [enter, if_pos hup]
    exact hsettled.around _ (List.prefix_refl _)
  · simp [isEntryName, hstep, hup]

/-- A joined path leads to something that is no directory only at a place of its directory. -/
theorem follow?_joinPath_iff (hname : '/' ∉ name.toList) {P : List String → Prop}
    (hP : ∀ p, P p → fs.get? p ≠ some .directory) :
    (endingOf (pathPieces (joinPath out name)) = .name ∧
        ∃ p, fs.follow? [] (routeNames (joinPath out name)) = some p ∧ P p) ↔
      isEntryName name = true ∧ P (directoryOf out ++ [name]) := by
  rw [endingOf_joinPath out hname]
  -- Following the joined path means entering one more name below the directory.
  have hfollow (hstep : isStep name = true) :
      fs.follow? [] (routeNames (joinPath out name)) = some (enter (directoryOf out) name) := by
    rw [routeNames_joinPath out hname, List.filter_cons_of_pos hstep]
    exact follow?_concat hway name
  have henter (hentry : isEntryName name = true) :
      enter (directoryOf out) name = directoryOf out ++ [name] := by
    have hdown : name ≠ ".." := by simpa using (Bool.and_eq_true_iff.mp hentry).2
    rw [enter, if_neg hdown]
  constructor
  · rintro ⟨hstep, p, hp, hPp⟩
    rw [hfollow hstep, Option.some.injEq] at hp
    subst hp
    have hentry := isEntryName_of_enter hway hstep (hP _ hPp)
    exact ⟨hentry, henter hentry ▸ hPp⟩
  · rintro ⟨hentry, hPp⟩
    have hstep := (Bool.and_eq_true_iff.mp hentry).1
    exact ⟨hstep, _, hfollow hstep, (henter hentry).symm ▸ hPp⟩

/-- Reading a joined path is reading at a place of the directory. -/
theorem read?_joinPath (hname : '/' ∉ name.toList) (text : String) :
    fs.read? (joinPath out name) = some text ↔
      isUsablePath (joinPath out name) = true ∧ isEntryName name = true ∧
        fs.get? (directoryOf out ++ [name]) = some (.file text) := by
  rw [read?_eq_some_iff,
    follow?_joinPath_iff hway hname (P := fun p => fs.get? p = some (.file text))]
  intro p hp
  simp [hp]

/-- Writing a joined path is writing at a place of the directory. -/
theorem write?_joinPath (hname : '/' ∉ name.toList) (text : String) :
    fs.write? (joinPath out name) text = some grown ↔
      isUsablePath (joinPath out name) = true ∧ isEntryName name = true ∧
        isFileName name = true ∧ fs.get? (directoryOf out ++ [name]) ≠ some .directory ∧
          fs.insert (directoryOf out ++ [name]) (.file text) = grown := by
  rw [write?_eq_some_iff, follow?_joinPath_iff hway hname
    (P := fun p => p.getLast?.all isFileName = true ∧ fs.get? p ≠ some .directory ∧
      fs.insert p (.file text) = grown) fun p hp => hp.2.1]
  simp

end

end FileSystem

end Memberwise
