import Memberwise.Proofs.CanonicalPath

/-!
# Memberwise.Proofs.Facades — paths through facades

No facade starts with another one, so at most one of them is at the start of a path, and what is
behind it has no part in the replacement (`definingPath_facade`, `definingPath_extend`).

The colons of a path tell how far it leads. A facade is at least two modules deep, and its
replacement takes away one of them at most (`colonCount_le_definingPath`).
-/

namespace Memberwise

/-! ## Longer paths -/

theorem extend_nil (base : String) : extend base [] = base := rfl

theorem extend_of_ne_nil (base : String) {rest : List String} (h : rest ≠ []) :
    extend base rest = base ++ "::" ++ "::".intercalate rest := by
  simp [extend, h]

theorem extend_extend (base : String) (xs ys : List String) :
    extend (extend base xs) ys = extend base (xs ++ ys) := by
  by_cases hxs : xs = []
  · rw [hxs, List.nil_append, extend_nil]
  by_cases hys : ys = []
  · rw [hys, List.append_nil, extend_nil]
  have hboth : xs ++ ys ≠ [] := by simp [hxs]
  rw [extend_of_ne_nil _ hys, extend_of_ne_nil _ hxs, extend_of_ne_nil _ hboth,
    String.intercalate_append_of_ne_nil hxs hys]
  simp only [String.append_assoc]

/-- What is behind the start of a path does not depend on the start. -/
theorem extend_append (first second : String) (rest : List String) :
    extend (first ++ second) rest = first ++ extend second rest := by
  by_cases hrest : rest = []
  · rw [hrest, extend_nil, extend_nil]
  · rw [extend_of_ne_nil _ hrest, extend_of_ne_nil _ hrest]
    simp only [String.append_assoc]

theorem text_absolute_cons (first : String) (rest : List String) :
    NamePath.text ⟨true, first :: rest⟩ = extend ("::" ++ first) rest := by
  have htext : NamePath.text ⟨true, first :: rest⟩ =
      "::" ++ NamePath.text ⟨false, first :: rest⟩ := by
    simp [NamePath.text]
  rw [htext, text_cons, extend_append]

theorem text_absolute_append {xs : List String} (h : xs ≠ []) (ys : List String) :
    NamePath.text ⟨true, xs ++ ys⟩ = extend (NamePath.text ⟨true, xs⟩) ys := by
  rcases List.exists_cons_of_ne_nil h with ⟨first, rest, rfl⟩
  rw [List.cons_append, text_absolute_cons, text_absolute_cons, extend_extend]

/-- A path is cut at its first double colon in one way. -/
theorem eq_of_append_colons {a b x y : String} (ha : ':' ∉ a.toList) (hb : ':' ∉ b.toList)
    (h : a ++ ("::" ++ x) = b ++ ("::" ++ y)) : a = b ∧ x = y := by
  have hcut : ∀ {s : String}, ':' ∉ s.toList → ∀ rest : String,
      Text.splitColons (s ++ ("::" ++ rest)).toList =
        s.toList :: Text.splitColons rest.toList := by
    intro s hs rest
    rw [← NamePath.splitColons_append hs]
    simp
  have hsplit := congrArg (fun s => Text.splitColons s.toList) h
  simp only [hcut ha, hcut hb] at hsplit
  have hab : a = b := String.toList_injective (List.cons.inj hsplit).1
  rw [hab, String.append_right_inj, String.append_right_inj] at h
  exact ⟨hab, h⟩

/-! ## One facade at most -/

/-- No facade starts with another one. -/
theorem facades_prefixFree : ∀ e ∈ facades, ∀ f ∈ facades, e.1.toList <+: f.1.toList → e = f := by
  decide +kernel

theorem dropStart?_append (start tail : String) :
    Text.dropStart? start (start ++ tail) = some tail := by
  have hdrop : start.toList.isPrefixOf? (start ++ tail).toList = some tail.toList := by
    rw [List.isPrefixOf?_eq_some_iff_append_eq, String.toList_append]
  rw [Text.dropStart?, hdrop, Option.map_some, String.ofList_toList]

/-- The facade at the start of a path is replaced, whatever is behind it. -/
theorem definingPath_facade {entry : String × String} (h : entry ∈ facades) (tail : String) :
    definingPath (entry.1 ++ tail) = entry.2 ++ tail := by
  unfold definingPath
  generalize hfind : List.findSome? _ facades = found
  cases found with
  | none =>
    have hnone := List.findSome?_eq_none_iff.mp hfind entry h
    simp [dropStart?_append] at hnone
  | some found =>
    rcases List.exists_of_findSome?_eq_some hfind with ⟨other, hother, hdrop⟩
    rcases Option.map_eq_some_iff.mp hdrop with ⟨rest, hrest, rfl⟩
    -- both are at the start of the path, so one of them starts with the other
    have hpath : entry.1.toList ++ tail.toList = other.1.toList ++ rest.toList := by
      have heq := congrArg String.toList (eq_append_of_dropStart? hrest)
      simpa using heq
    have hsame : entry = other := by
      have hentry : entry.1.toList <+: entry.1.toList ++ tail.toList := List.prefix_append _ _
      have hother' : other.1.toList <+: entry.1.toList ++ tail.toList := by
        rw [hpath]
        exact List.prefix_append _ _
      rcases List.prefix_or_prefix_of_prefix hentry hother' with hprefix | hprefix
      · exact facades_prefixFree entry h other hother hprefix
      · exact (facades_prefixFree other hother entry h hprefix).symm
    subst hsame
    have htail : tail = rest := String.toList_injective (List.append_cancel_left hpath)
    rw [htail, Option.getD_some]

/-- If a path goes through a facade, a longer one goes through the same. -/
theorem definingPath_extend {path : String} (h : definingPath path ≠ path) (rest : List String) :
    definingPath (extend path rest) = extend (definingPath path) rest := by
  rcases definingPath_cases path with hkeep | ⟨entry, hentry, tail, hpath, hdefining⟩
  · exact absurd hkeep h
  · rw [hdefining, hpath, extend_append, definingPath_facade hentry, extend_append]

/-! ## Colons -/

/-- The number of colons in a text. -/
def colonCount (text : String) : Nat := text.toList.count ':'

theorem colonCount_append (a b : String) : colonCount (a ++ b) = colonCount a + colonCount b := by
  rw [colonCount, String.toList_append, List.count_append, colonCount, colonCount]

theorem colonCount_eq_zero {text : String} (h : ':' ∉ text.toList) : colonCount text = 0 :=
  List.count_eq_zero.mpr h

/-- Each further segment adds two colons, besides those that it has itself. -/
theorem colonCount_extend (base : String) (rest : List String) :
    colonCount (extend base rest) =
      colonCount base + 2 * rest.length + (rest.flatMap String.toList).count ':' := by
  have hcolons : colonCount "::" = 2 := by decide
  induction rest generalizing base with
  | nil => simp [extend_nil]
  | cons first rest ih =>
    have hstep : extend base (first :: rest) = extend (base ++ "::" ++ first) rest := by
      rw [← List.singleton_append, ← extend_extend]
      simp [extend]
    rw [hstep, ih, colonCount_append, colonCount_append, hcolons, List.length_cons,
      List.flatMap_cons, List.count_append, ← colonCount]
    omega

/-- Facades are two modules deep or deeper. All but two kinds are as deep as what they stand for;
these are a module deeper. -/
theorem colonCount_facades : ∀ entry ∈ facades,
    6 ≤ colonCount entry.1 ∧ colonCount entry.1 ≤ colonCount entry.2 + 2 ∧
      (colonCount entry.2 < colonCount entry.1 →
        entry.1 = "::propgroup::prelude::" ∨ 8 ≤ colonCount entry.1) := by
  decide +kernel

theorem colonCount_le_definingPath (path : String) :
    colonCount path ≤ colonCount (definingPath path) + 2 := by
  rcases definingPath_cases path with hkeep | ⟨entry, hentry, tail, hpath, hdefining⟩
  · rw [hkeep]
    omega
  · have hentry := (colonCount_facades entry hentry).2.1
    rw [hdefining, hpath, colonCount_append, colonCount_append]
    omega

/-- A path with six colons keeps them, unless its facade is the prelude. -/
theorem colonCount_definingPath_of_eq_six {path : String} (h : colonCount path = 6) :
    6 ≤ colonCount (definingPath path) ∨ ∃ tail, path = "::propgroup::prelude::" ++ tail := by
  -- A facade that gets shorter is the prelude's or has too many colons to be this path.
  rcases definingPath_cases path with hkeep | ⟨entry, hentry, tail, hpath, hdefining⟩
  · left
    rw [hkeep]
    exact Nat.le_of_eq h.symm
  · rcases colonCount_facades entry hentry with ⟨hdeep, -, hshorter⟩
    rw [hpath, colonCount_append] at h
    by_cases hlt : colonCount entry.2 < colonCount entry.1
    · right
      rcases hshorter hlt with hprelude | hdeeper
      · exact ⟨tail, by rw [hpath, hprelude]⟩
      · omega
    · left
      rw [hdefining, colonCount_append]
      omega

/-- A path that leads to a module of a crate at most goes through no facade. -/
theorem definingPath_of_colonCount {path : String} (h : colonCount path < 6) :
    definingPath path = path := by
  rcases definingPath_cases path with hkeep | ⟨entry, hentry, tail, hpath, -⟩
  · exact hkeep
  · have hfacade := (colonCount_facades entry hentry).1
    rw [hpath, colonCount_append] at h
    omega

end Memberwise
