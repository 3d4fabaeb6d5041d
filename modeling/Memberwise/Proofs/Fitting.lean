import Memberwise.Proofs.TypeReading

/-!
# Memberwise.Proofs.Fitting — the bounds of types that are read fit

Behind `&`, `*` and `->` a type is read without plus signs, so a trait object that is read there
has one bound. `Gives p P` says that every value the reader `p` gives satisfies `P`; the rules of
the grammar for types and bounds give values that fit if the rules for their parts do
(`fit_rules`). So no text is read as a type that does not fit (`fits_of_parseType`).
-/

namespace Memberwise.Source

variable {α β : Type}

/-! ## What readers give -/

/-- Every value that the reader gives satisfies `P`. -/
def Gives (p : Reader α) (P : α → Prop) : Prop := ∀ c a c', p c = some (a, c') → P a

namespace Gives

variable {p : Reader α} {f : α → Reader β} {P : α → Prop} {Q : β → Prop}

/-- What a reader gives satisfies what every reader after it gives. -/
theorem bind (hp : Gives p P) (hf : ∀ a, P a → Gives (f a) Q) : Gives (p >>= f) Q := by
  intro c b c' h
  rcases Option.bind_eq_some_iff.mp h with ⟨⟨a, middle⟩, hfirst, hsecond⟩
  exact hf a (hp c a middle hfirst) middle b c' hsecond

/-- A reader whose value does not matter before another one. -/
theorem seq (hf : ∀ a, Gives (f a) Q) : Gives (p >>= f) Q :=
  Gives.bind (P := fun _ => True) (fun _ _ _ _ => trivial) fun a _ => hf a

/-- A value that is given at once. -/
theorem pure {a : α} (h : P a) : Gives (pure a) P := by
  intro c b c' heq
  cases heq
  exact h

/-- A reader that fails gives nothing. -/
theorem failure : Gives (failure : Reader α) P := by
  intro c a c' h
  cases h

/-- Nothing comes after a failure. -/
theorem failed : Gives ((Alternative.failure : Reader α) >>= f) Q :=
  Gives.bind (P := fun _ => False) Gives.failure fun _ h => h.elim

/-- A choice gives what both of its sides give. -/
theorem ite {b : Prop} [Decidable b] {q : Reader α} (hp : b → Gives p P) (hq : ¬b → Gives q P) :
    Gives (if b then p else q) P := by
  by_cases h : b
  · rw [if_pos h]
    exact hp h
  · rw [if_neg h]
    exact hq h

/-- What is given is mapped. -/
theorem map {g : α → β} (hp : Gives p P) (hg : ∀ a, P a → Q (g a)) : Gives (g <$> p) Q := by
  rw [map_eq_pure_bind]
  exact hp.bind fun a ha => Gives.pure (hg a ha)

/-- A group gives what its content gives. -/
theorem group {d : Delimiter} (hp : Gives p P) : Gives (group d p) P := by
  intro c a c' h
  unfold Source.group at h
  split at h
  · split at h
    · split at h
      · next inner =>
        cases h
        exact hp _ _ _ inner
      · cases h
    · cases h
  · cases h

/-- The tokens that are kept beside a value do not matter for it. -/
theorem captured (hp : Gives p P) : Gives (captured p) fun x => P x.1 := by
  intro c a c' h
  unfold Source.captured at h
  split at h
  · next inner =>
    cases h
    exact hp _ _ _ inner
  · cases h

/-- The tokens that are kept in place of those taken do not matter for the value. -/
theorem printedAs {tokens : α → List TokenTree} (hp : Gives p P) :
    Gives (printedAs tokens p) P := by
  intro c a c' h
  unfold Source.printedAs at h
  split at h
  · next inner =>
    cases h
    exact hp _ _ _ inner
  · cases h

/-- A form is applied to the tokens that it takes. -/
theorem form {p : Reader (List TokenTree → β)}
    (hp : Gives p fun form => ∀ tokens, Q (form tokens)) :
    Gives (do let (form, tokens) ← Source.captured p; return form tokens) Q :=
  hp.captured.bind fun x hx => Gives.pure (hx x.2)

/-! ## Lists -/

/-- The loop gives elements of which each is given by its reader. -/
theorem manyLoop (stop : List TokenTree → Bool) (hp : Gives p P) (fuel : Nat) :
    Gives (manyLoop stop p fuel) fun as => ∀ a ∈ as, P a := by
  induction fuel with
  | zero => exact Gives.failure
  | succ fuel ih =>
    refine Gives.seq fun stopped => Gives.ite (fun _ => Gives.pure (by simp)) fun _ => ?_
    refine hp.bind fun a ha => ih.bind fun as has => Gives.pure ?_
    exact List.forall_mem_cons.mpr ⟨ha, has⟩

/-- Repetition gives elements of which each is given by its reader. -/
theorem many (stop : List TokenTree → Bool) (hp : Gives p P) :
    Gives (many stop p) fun as => ∀ a ∈ as, P a := Gives.seq fun _ => hp.manyLoop stop _

/-- The loop over elements with separators gives elements that the reader gives. -/
theorem terminatedLoop (stop : List TokenTree → Bool) (separator : String) (hp : Gives p P)
    (fuel : Nat) : Gives (terminatedLoop stop separator p fuel) fun as => ∀ a ∈ as.1, P a := by
  induction fuel with
  | zero => exact Gives.failure
  | succ fuel ih =>
    refine Gives.seq fun stopped => Gives.ite (fun _ => Gives.pure (by simp)) fun _ => ?_
    refine hp.bind fun a ha => Gives.seq fun stopped =>
      Gives.ite (fun _ => Gives.pure (by simpa)) ?_
    intro _
    refine Gives.seq fun _ => ih.bind fun as has => Gives.pure ?_
    exact List.forall_mem_cons.mpr ⟨ha, has⟩

/-- Elements with separators up to an end are given by the reader. -/
theorem terminated (stop : List TokenTree → Bool) (separator : String) (hp : Gives p P) :
    Gives (terminated stop separator p) fun as => ∀ a ∈ as.1, P a :=
  Gives.seq fun _ => hp.terminatedLoop stop separator _

/-- The loop over elements that go on with a separator gives elements that the reader gives. -/
theorem chainedLoop (stop : List TokenTree → Bool) (separator : String) (hp : Gives p P)
    (fuel : Nat) :
    Gives (chainedLoop stop separator p fuel) fun as => ∀ a ∈ as.1, P a := by
  induction fuel with
  | zero => exact Gives.failure
  | succ fuel ih =>
    refine Gives.seq fun stopped => Gives.ite (fun _ => Gives.pure (by simp)) fun _ => ?_
    refine hp.bind fun a ha => Gives.seq fun more => Gives.ite (fun _ => ?_) fun _ => ?_
    · refine ih.bind fun as has => Gives.pure ?_
      exact List.forall_mem_cons.mpr ⟨ha, has⟩
    · exact Gives.pure (by simpa)

/-- Elements that go on with a separator are given by the reader. -/
theorem chained (stop : List TokenTree → Bool) (separator : String) (hp : Gives p P) :
    Gives (chained stop separator p) fun as => ∀ a ∈ as.1, P a :=
  Gives.seq fun _ => hp.chainedLoop stop separator _

/-- Elements with commas between them are given by the reader. -/
theorem commaList (hp : Gives p P) : Gives (commaList p) fun as => ∀ a ∈ as.1, P a :=
  hp.terminated _ _

end Gives

/-! ## Rules -/

/-- Rules that give types and bounds that fit. -/
structure Rules.Fit (r : Rules) : Prop where
  type : ∀ plus, Gives (r.type plus) fun t => t.Fits plus
  bound : ∀ capture const, Gives (r.bound capture const) TypeBound.Fits

section

variable {r : Rules}

/-- What follows the name of an associated item fits. -/
theorem gives_associatedForm (hr : r.Fit) {t : SourceType} (ht : t.Fits true) (name : Ident)
    (own : PathArguments) :
    Gives (associatedForm r t name own) fun form => ∀ tokens, (form tokens).Fits := by
  refine Gives.seq fun equals => Gives.ite (fun _ => Gives.seq fun const => ?_) fun _ => ?_
  · refine Gives.ite (fun _ => Gives.seq fun _ => Gives.pure fun _ => trivial) fun _ => ?_
    exact (hr.type true).bind fun target htarget => Gives.pure fun _ => htarget
  · refine Gives.seq fun colon => Gives.ite (fun _ => ?_) fun _ => Gives.pure fun _ => ht
    exact Gives.seq fun _ => Gives.pure fun _ => trivial

/-- An argument in angle brackets fits. -/
theorem gives_argumentForm (hr : r.Fit) :
    Gives (argumentForm r) fun form => ∀ tokens, (form tokens).Fits := by
  refine Gives.seq fun lifetime => Gives.ite (fun _ => ?_) fun _ => Gives.seq fun const => ?_
  · exact Gives.seq fun i => Gives.pure fun _ => trivial
  · refine Gives.ite (fun _ => Gives.seq fun _ => Gives.pure fun _ => trivial) fun _ => ?_
    refine (hr.type true).bind fun t ht => ?_
    split
    · exact gives_associatedForm hr ht _ _
    · exact Gives.pure fun _ => ht

/-- Arguments in angle brackets fit. -/
theorem gives_angleArguments (hr : r.Fit) : Gives (angleArguments r) PathArguments.Fits := by
  have hargument : Gives (genericArgument r) GenericArgument.Fits := (gives_argumentForm hr).form
  refine Gives.printedAs (Gives.seq fun turbofish => Gives.seq fun _ => ?_)
  refine (hargument.terminated _ _).bind fun args hargs => Gives.seq fun _ => Gives.pure ?_
  exact argsFit_iff.mpr hargs

/-- The arguments of a segment fit. -/
theorem gives_pathSegment (hr : r.Fit) (inExpr : Bool) :
    Gives (pathSegment r inExpr) fun s => s.arguments.Fits := by
  refine Gives.seq fun lone => Gives.ite (fun _ => ?_) fun _ => ?_
  · exact Gives.seq fun i => Gives.pure trivial
  · refine Gives.seq fun word => ?_
    refine Gives.ite (fun _ => ?_) fun _ => ?_
    · refine Gives.seq fun i => Gives.seq fun angle => Gives.ite (fun _ => ?_) fun _ => ?_
      · exact (gives_angleArguments hr).bind fun arguments h => Gives.pure h
      · exact Gives.pure trivial
    · refine Gives.seq fun i => Gives.seq fun angle => Gives.ite (fun _ => ?_) fun _ => ?_
      · exact (gives_angleArguments hr).bind fun arguments h => Gives.pure h
      · exact Gives.pure trivial

/-- The arguments in a path fit. -/
theorem gives_sourcePath (hr : r.Fit) (inExpr : Bool) :
    Gives (sourcePath r inExpr) SourcePath.Fits := by
  refine Gives.seq fun absolute => (gives_pathSegment hr inExpr).bind fun first hfirst => ?_
  have hsegment : Gives (do op "::"; pathSegment r inExpr) fun s => s.arguments.Fits :=
    Gives.seq fun _ => gives_pathSegment hr inExpr
  refine (hsegment.many _).bind fun rest hrest => Gives.pure ?_
  exact segmentsFit_iff.mpr (List.forall_mem_cons.mpr ⟨hfirst, hrest⟩)

/-- A call fits if its inputs do and its output has one bound at most. -/
theorem fits_call {inputs : List SourceType} (trailing : Bool) {output : Option SourceType}
    (hinputs : ∀ t ∈ inputs, t.Fits true) (houtput : ∀ t ∈ output, t.Fits false) :
    (PathArguments.call inputs trailing output).Fits := by
  cases output with
  | none => exact typesFit_iff.mpr hinputs
  | some output => exact ⟨typesFit_iff.mpr hinputs, houtput output rfl⟩

/-- The inputs and the output of a call fit, since the output is read without plus signs. -/
theorem gives_callArguments (hr : r.Fit) : Gives (callArguments r) PathArguments.Fits := by
  refine Gives.printedAs (Gives.seq fun _ => ?_)
  refine (hr.type true).commaList.group.bind fun inputs hinputs => Gives.seq fun arrow => ?_
  refine Gives.ite (fun _ => ?_) fun _ => ?_
  · have houtput : Gives (some <$> r.type false) fun output => ∀ t ∈ output, t.Fits false :=
      (hr.type false).map (by simp)
    exact houtput.bind fun output h => Gives.pure (fits_call inputs.2 hinputs h)
  · have hnone : Gives (pure none) fun output : Option SourceType => ∀ t ∈ output, t.Fits false :=
      Gives.pure (by simp)
    exact hnone.bind fun output h => Gives.pure (fits_call inputs.2 hinputs h)

/-- A call as the last arguments keeps segments that fit. -/
theorem segmentsFit_withCall {call : PathArguments} (hcall : call.Fits)
    {segments : List PathSegment} (h : SegmentsFit segments) :
    SegmentsFit (withCall call segments) := by
  fun_induction withCall call segments with
  | case1 => trivial
  | case2 i arguments => exact ⟨hcall, trivial⟩
  | case3 segment rest hne ih =>
    rw [segmentsFit_iff, List.forall_mem_cons, ← segmentsFit_iff] at h ⊢
    exact ⟨h.1, ih h.2⟩

/-- The arguments in the path of a trait fit. -/
theorem gives_traitPath (hr : r.Fit) : Gives (traitPath r) SourcePath.Fits := by
  refine (gives_sourcePath hr false).bind fun p hp => Gives.seq fun ts => ?_
  refine Gives.ite (fun _ => ?_) fun _ => Gives.pure hp
  rcases p with ⟨absolute, segments⟩
  exact (gives_callArguments hr).bind fun call hcall => Gives.pure (segmentsFit_withCall hcall hp)

/-- A trait among bounds fits. -/
theorem gives_traitBound (hr : r.Fit) (const parenthesized : Bool) :
    Gives (traitBound r const parenthesized) fun form => ∀ tokens, (form tokens).Fits := by
  have hend : ∀ (marked maybe : Bool) (binder : List TokenTree), Gives (do
      let p ← traitPath r
      return if marked then TypeBound.other else fun _ => .trait parenthesized maybe binder p)
        fun form => ∀ tokens, (form tokens).Fits := by
    intro marked maybe binder
    refine (gives_traitPath hr).bind fun p hp => Gives.pure fun tokens => ?_
    -- A bound with a mark is kept as tokens, of which nothing is asked.
    cases marked with
    | true => trivial
    | false => exact hp
  refine Gives.seq fun before => Gives.seq fun marked => ?_
  refine Gives.ite (fun _ => Gives.failed) fun _ => Gives.seq fun maybe => Gives.seq fun after => ?_
  exact Gives.ite (fun _ => Gives.failed) fun _ => hend marked maybe (before ++ after)

/-- The rule for bounds gives bounds that fit. -/
theorem gives_boundRule (hr : r.Fit) (capture const : Bool) :
    Gives (boundRule r capture const) TypeBound.Fits := by
  refine Gives.form (Gives.seq fun lifetime => Gives.ite (fun _ => ?_) fun _ => ?_)
  · exact Gives.seq fun i => Gives.pure fun _ => trivial
  · refine Gives.seq fun use => Gives.ite (fun _ => Gives.seq fun _ => ?_) fun _ => ?_
    · exact Gives.ite (fun _ => Gives.pure fun _ => trivial) fun _ => Gives.failure
    · refine Gives.seq fun parenthesis => Gives.ite (fun _ => ?_) fun _ => ?_
      · exact (gives_traitBound hr const true).group
      · exact gives_traitBound hr const false

/-- Where no plus sign is read there is one bound. -/
theorem gives_furtherBounds (hr : r.Fit) {first : TypeBound} (hfirst : first.Fits)
    (plus capture const : Bool) :
    Gives (furtherBounds r first plus capture const) fun bs =>
      BoundsFit bs.1 ∧ (plus = true ∨ bs.1.length ≤ 1) := by
  refine Gives.seq fun more => Gives.ite (fun hmore => Gives.seq fun _ => ?_) fun _ => ?_
  · refine ((hr.bound capture const).chained _ _).bind fun rest hrest => Gives.pure ⟨?_, ?_⟩
    · exact boundsFit_iff.mpr (List.forall_mem_cons.mpr ⟨hfirst, hrest⟩)
    · exact Or.inl (Bool.and_eq_true_iff.mp hmore).1
  · exact Gives.pure ⟨⟨hfirst, trivial⟩, Or.inr (Nat.le_refl 1)⟩

/-- A trait object without `dyn` fits everywhere. -/
theorem gives_objectBounds (hr : r.Fit) (marked plus : Bool) {place : Bool}
    (hplace : marked = true → place = plus) :
    Gives (objectBounds r marked plus) fun t => t.Fits place := by
  refine Gives.bind (P := fun bs => BoundsFit bs.1 ∧ (plus = true ∨ bs.1.length ≤ 1)) ?_ ?_
  · exact (hr.bound false false).bind fun first hfirst =>
      gives_furtherBounds hr hfirst plus false false
  · intro bs hbs
    refine Gives.ite (fun _ => Gives.pure ⟨fun hmarked => ?_, hbs.1⟩) fun _ => Gives.failure
    rw [hplace hmarked]
    exact hbs.2

/-! ## Types in parentheses -/

/-- What stands in parentheses fits. -/
def ParenContent.Fits : ParenContent → Prop
  | .object t => t.Fits true
  | .maybe b => b.Fits
  | .tuple elems _ => TypesFit elems
  | .one t => t.Fits true

/-- What stands in parentheses fits, a type as well as bounds. -/
theorem gives_parenContent (hr : r.Fit) : Gives (parenContent r) ParenContent.Fits := by
  refine Gives.seq fun ended => Gives.ite (fun _ => Gives.pure trivial) fun _ => ?_
  refine Gives.seq fun lifetime => Gives.ite (fun _ => ?_) fun _ => ?_
  · exact (gives_objectBounds hr false true (by simp)).bind fun t ht => Gives.pure ht
  · refine Gives.seq fun question => Gives.ite (fun _ => ?_) fun _ => ?_
    · exact (gives_traitBound hr false true).bind fun form hform => Gives.pure (hform [])
    · refine (hr.type true).bind fun first hfirst => Gives.seq fun comma => ?_
      refine Gives.ite (fun _ => ?_) fun _ => Gives.pure hfirst
      refine (hr.type true).commaList.bind fun rest hrest => Gives.pure ?_
      exact ⟨hfirst, typesFit_iff.mpr hrest⟩

/-- A bound that was read as a type in parentheses fits. -/
theorem fits_parenBound? {t : SourceType} (ht : t.Fits true) {b : TypeBound}
    (h : parenBound? t = some b) : b.Fits := by
  unfold parenBound? at h
  split at h
  · cases h
    exact ht
  · cases h
    exact ht.2.1
  · cases h
    exact ht.2.1
  · cases h

/-- Bounds that go on from a first one fit: without `dyn` there may be several. -/
theorem gives_objectFrom (hr : r.Fit) {first : TypeBound} (hfirst : first.Fits) (plus : Bool) :
    Gives (objectFrom r first) fun t => t.Fits plus := by
  have hbound : Gives (do op "+"; r.bound false false) TypeBound.Fits :=
    Gives.seq fun _ => hr.bound false false
  refine (hbound.many _).bind fun rest hrest => Gives.pure ⟨by simp, ?_⟩
  exact boundsFit_iff.mpr (List.forall_mem_cons.mpr ⟨hfirst, hrest⟩)

/-- A type that starts with parentheses fits. -/
theorem gives_parenType (hr : r.Fit) (plus : Bool) :
    Gives (parenType r plus) fun t => t.Fits plus := by
  refine (gives_parenContent hr).group.bind fun content hcontent => ?_
  cases content with
  | object t => exact Gives.pure hcontent
  | maybe b => exact gives_objectFrom hr hcontent plus
  | tuple elems trailing => exact Gives.pure hcontent
  | one t =>
    refine Gives.seq fun more => Gives.ite (fun _ => ?_) fun _ => Gives.pure hcontent
    split
    · next hb => exact gives_objectFrom hr (fits_parenBound? hcontent hb) plus
    · exact Gives.pure hcontent

/-! ## Other types -/

/-- A type that starts with a path fits. -/
theorem gives_pathType (hr : r.Fit) (plus : Bool) (bound : List TokenTree) :
    Gives (pathType r plus bound) fun form => ∀ tokens, (form tokens).Fits plus := by
  have hpath : Gives (anyPath r false) fun p? => ∀ p ∈ p?, p.Fits := by
    refine Gives.seq fun qualified => Gives.ite (fun _ => ?_) fun _ => ?_
    · exact Gives.seq fun _ => Gives.pure (by simp)
    · exact (gives_sourcePath hr false).bind fun p hp => Gives.pure (by simpa)
  refine hpath.bind fun p? hp => Gives.seq fun called => Gives.ite (fun _ => ?_) fun _ => ?_
  · exact Gives.seq fun _ => Gives.pure fun _ => trivial
  -- A path that stands alone fits; with further bounds it has to be a bound itself.
  · cases p? with
    | none => exact Gives.pure fun _ => trivial
    | some p =>
      have hfirst : (TypeBound.trait false false bound p).Fits := hp p rfl
      refine Gives.seq fun more => Gives.ite (fun _ => ?_) fun _ => Gives.pure fun _ => hp p rfl
      refine (gives_furtherBounds hr hfirst plus false false).bind fun bs hbs => Gives.pure ?_
      exact fun _ => ⟨by simp, hbs.1⟩

/-- A slice or an array fits. -/
theorem gives_bracketType (hr : r.Fit) (plus : Bool) :
    Gives (bracketType r) fun t => t.Fits plus := by
  refine Gives.group ((hr.type true).bind fun elem helem => Gives.seq fun semicolon => ?_)
  exact Gives.ite (fun _ => Gives.seq fun _ => Gives.pure helem) fun _ => Gives.pure helem

/-- A pointer fits: its target is read without plus signs. -/
theorem gives_pointerType (hr : r.Fit) (plus : Bool) :
    Gives (pointerType r) fun t => t.Fits plus := by
  refine Gives.seq fun _ => Gives.seq fun mutable => ?_
  refine Gives.ite (fun _ => ?_) fun _ => Gives.seq fun _ => ?_
  · exact (hr.type false).bind fun target htarget => Gives.pure htarget
  · exact (hr.type false).bind fun target htarget => Gives.pure htarget

/-- A reference fits: its target is read without plus signs. -/
theorem gives_referenceType (hr : r.Fit) (plus : Bool) :
    Gives (referenceType r) fun t => t.Fits plus := by
  refine Gives.seq fun _ => Gives.seq fun lifetime => Gives.seq fun mutable => ?_
  exact (hr.type false).bind fun target htarget => Gives.pure htarget

/-- Every form of type fits. -/
theorem gives_typeForm (hr : r.Fit) (plus : Bool) :
    Gives (typeForm r plus) fun form => ∀ tokens, (form tokens).Fits plus := by
  -- The form of a type is a chain of tests on the tokens; each branch fits by its own lemma.
  refine Gives.seq fun bound => Gives.seq fun ts => ?_
  refine Gives.ite (fun _ => Gives.failure) fun _ => ?_
  refine Gives.ite (fun _ => ?_) fun _ => ?_
  · exact (gives_parenType hr plus).bind fun t ht => Gives.pure fun _ => ht
  refine Gives.ite (fun _ => ?_) fun _ => ?_
  · exact Gives.seq fun _ => Gives.pure fun _ => trivial
  refine Gives.ite (fun _ => gives_pathType hr plus bound) fun _ => ?_
  refine Gives.ite (fun _ => Gives.seq fun _ => Gives.seq fun starred => ?_) fun _ => ?_
  · refine (gives_objectBounds hr true plus fun _ => rfl).bind fun t ht =>
      Gives.pure fun tokens => ?_
    -- A starred object's bounds are kept as written, so nothing is asked of them.
    cases starred with
    | true => trivial
    | false => exact ht
  refine Gives.ite (fun _ => ?_) fun _ => ?_
  · exact (gives_bracketType hr plus).bind fun t ht => Gives.pure fun _ => ht
  refine Gives.ite (fun _ => ?_) fun _ => ?_
  · exact (gives_pointerType hr plus).bind fun t ht => Gives.pure fun _ => ht
  refine Gives.ite (fun _ => ?_) fun _ => ?_
  · exact (gives_referenceType hr plus).bind fun t ht => Gives.pure fun _ => ht
  refine Gives.ite (fun _ => Gives.seq fun _ => Gives.pure fun _ => trivial) fun _ => ?_
  refine Gives.ite (fun _ => Gives.seq fun _ => Gives.seq fun bs => ?_) fun _ => ?_
  · exact Gives.ite (fun _ => Gives.pure fun _ => trivial) fun _ => Gives.failure
  refine Gives.ite (fun _ => Gives.seq fun _ => Gives.pure fun _ => trivial) fun _ => ?_
  refine Gives.ite (fun _ => ?_) fun _ => Gives.failure
  exact (gives_objectBounds hr false true (by simp)).bind fun t ht => Gives.pure fun _ => ht

end

/-! ## Closing the grammar -/

/-- The rules of every depth give types and bounds that fit. -/
theorem fit_rules (depth : Nat) : (rules depth).Fit := by
  induction depth with
  | zero => exact ⟨fun _ => Gives.failure, fun _ _ => Gives.failure⟩
  | succ depth ih =>
    refine ⟨fun plus => ?_, fun capture const => gives_boundRule ih capture const⟩
    exact (gives_typeForm ih plus).form

/-- A type that a text is read as fits. -/
theorem fits_of_parseType {text : String} {t : SourceType} (h : parseType text = some t) :
    t.Fits true := by
  rcases Option.bind_eq_some_iff.mp h with ⟨ts, -, hread⟩
  unfold readTokens Reader.run? at hread
  split at hread
  · next hrun =>
    cases hread
    exact (fit_rules _).type true _ _ _ hrun
  · cases hread

end Memberwise.Source
