import Memberwise.Source.Reader

/-!
# Memberwise.Proofs.Reading — what readers take and give

`Reads p ts rest a` says that the reader `p` takes the tokens `ts`, where `rest` follows them, and
gives `a`. Readers in sequence take their tokens one after another (`Reads.bind`), and a reader that
looks ahead takes nothing. For lists there is one relation for each kind of loop, which says how the
elements and separators fall on the tokens; the loop reads what the relation describes.
-/

namespace Memberwise.Source

variable {α β : Type}

/-- The reader `p` takes the tokens `ts`, where `rest` follows them, and gives `a`. -/
def Reads (p : Reader α) (ts rest : List TokenTree) (a : α) : Prop :=
  ∀ taken, ∃ now, p ⟨ts ++ rest, taken⟩ = some (a, ⟨rest, now⟩)

namespace Reads

variable {p : Reader α} {f : α → Reader β} {ts us rest : List TokenTree} {a : α} {b : β}

/-- A value is read from no tokens. -/
theorem pure (a : α) (rest : List TokenTree) : Reads (pure a) [] rest a :=
  fun taken => ⟨taken, rfl⟩

/-- Readers in sequence take their tokens one after another. -/
theorem bind (hp : Reads p ts (us ++ rest) a) (hf : Reads (f a) us rest b) :
    Reads (p >>= f) (ts ++ us) rest b := by
  intro taken
  rcases hp taken with ⟨middle, hfirst⟩
  rcases hf middle with ⟨now, hsecond⟩
  refine ⟨now, ?_⟩
  change (p ⟨ts ++ us ++ rest, taken⟩).bind (fun x => f x.1 x.2) = _
  rw [List.append_assoc, hfirst]
  exact hsecond

/-- A reader that takes nothing before another one. -/
theorem before (hp : Reads p [] (ts ++ rest) a) (hf : Reads (f a) ts rest b) :
    Reads (p >>= f) ts rest b := hp.bind hf

/-- A reader that takes nothing after another one. -/
theorem after (hp : Reads p ts rest a) (hf : Reads (f a) [] rest b) :
    Reads (p >>= f) ts rest b := by
  have h : Reads (p >>= f) (ts ++ []) rest b := hp.bind hf
  rwa [List.append_nil] at h

/-- What is read is mapped. -/
theorem map (g : α → β) (hp : Reads p ts rest a) : Reads (g <$> p) ts rest (g a) := by
  rw [map_eq_pure_bind]
  exact hp.after (Reads.pure _ _)

/-- What is read can be dropped. -/
theorem discard (hp : Reads p ts rest a) : Reads (discard p) ts rest () := hp.map _

/-- Looking ahead takes nothing. -/
theorem ahead (rest : List TokenTree) : Reads ahead [] rest rest := fun taken => ⟨taken, rfl⟩

/-- A question about what is ahead takes nothing. -/
theorem peek (q : List TokenTree → Bool) (rest : List TokenTree) :
    Reads (peek q) [] rest (q rest) := fun taken => ⟨taken, rfl⟩

/-- Looking ahead decides what is read. -/
theorem peek_bind {q : List TokenTree → Bool} {f : Bool → Reader β}
    (hf : Reads (f (q (ts ++ rest))) ts rest b) : Reads (Source.peek q >>= f) ts rest b :=
  (Reads.peek q _).before hf

/-- The side that the answer yes chooses is read. -/
theorem peek_true {q : List TokenTree → Bool} {f : Bool → Reader β} (hq : q (ts ++ rest) = true)
    (hf : Reads (f true) ts rest b) : Reads (Source.peek q >>= f) ts rest b :=
  Reads.peek_bind (hq ▸ hf)

/-- The side that the answer no chooses is read. -/
theorem peek_false {q : List TokenTree → Bool} {f : Bool → Reader β} (hq : q (ts ++ rest) = false)
    (hf : Reads (f false) ts rest b) : Reads (Source.peek q >>= f) ts rest b :=
  Reads.peek_bind (hq ▸ hf)

/-- What comes after looking ahead may depend on all tokens that are left. -/
theorem ahead_bind {f : List TokenTree → Reader β} (hf : Reads (f (ts ++ rest)) ts rest b) :
    Reads (Source.ahead >>= f) ts rest b := (Reads.ahead _).before hf

/-- Tokens can be passed over. -/
theorem advance (tokens : List TokenTree) (rest : List TokenTree) :
    Reads (advance tokens rest) ts rest () := fun _ => ⟨_, rfl⟩

/-! ## Tokens -/

/-- An operator is read from as many tokens as it has characters. -/
theorem op {text : String} (hop : atOp text (ts ++ rest) = true)
    (hlength : ts.length = text.length) : Reads (op text) ts rest () := by
  refine Reads.ahead_bind ?_
  rw [if_pos hop, ← hlength, List.drop_left]
  exact Reads.advance _ _

/-- An operator that may come is read if it does. -/
theorem op?_true {text : String} (hop : atOp text (ts ++ rest) = true)
    (hlength : ts.length = text.length) : Reads (op? text) ts rest true :=
  Reads.peek_true hop ((Reads.op hop hlength).after (Reads.pure _ _))

/-- An operator that may come is left out if it does not. -/
theorem op?_false {text : String} (hop : atOp text rest = false) : Reads (op? text) [] rest false :=
  Reads.peek_false hop (Reads.pure _ _)

/-- An identifier is read. -/
theorem ident (i : Ident) (rest : List TokenTree) : Reads ident [.ident i] rest i :=
  Reads.ahead_bind ((Reads.advance [.ident i] rest).after (Reads.pure _ _))

/-- An identifier that can name something is read as a name. -/
theorem name {i : Ident} (h : i.isName = true) (rest : List TokenTree) :
    Reads name [.ident i] rest i := Reads.peek_true h (Reads.ident i rest)

/-- A bare word is read. -/
theorem word (text : String) (rest : List TokenTree) :
    Reads (word text) [.ident (.plain text)] rest () := by
  refine Reads.peek_true ?_ (Reads.ident (.plain text) rest).discard
  simp [atWord, Ident.isWord, Ident.plain]

/-- A word that may come is read if it does. -/
theorem word?_true (text : String) (rest : List TokenTree) :
    Reads (word? text) [.ident (.plain text)] rest true := by
  refine Reads.peek_true ?_ ((Reads.word text rest).after (Reads.pure _ _))
  simp [atWord, Ident.isWord, Ident.plain]

/-- A word that may come is left out if it does not. -/
theorem word?_false {text : String} (h : atWord text rest = false) :
    Reads (word? text) [] rest false := Reads.peek_false h (Reads.pure _ _)

/-- A lifetime is read. -/
theorem lifetime (i : Ident) (rest : List TokenTree) : Reads lifetime [.lifetime i] rest i :=
  Reads.ahead_bind ((Reads.advance [.lifetime i] rest).after (Reads.pure _ _))

/-- A lifetime that may come is read if it does. -/
theorem lifetime?_some (i : Ident) (rest : List TokenTree) :
    Reads lifetime? [.lifetime i] rest (some i) :=
  Reads.peek_true rfl ((Reads.lifetime i rest).after (Reads.pure _ _))

/-- A lifetime that may come is left out if it does not. -/
theorem lifetime?_none (h : atLifetime rest = false) : Reads lifetime? [] rest none :=
  Reads.peek_false h (Reads.pure _ _)

/-- A group whose content is read to the end. -/
theorem group {d : Delimiter} (h : Reads p ts [] a) (rest : List TokenTree) :
    Reads (group d p) [.group d ts] rest a := by
  intro taken
  rcases h [] with ⟨now, hinner⟩
  rw [List.append_nil] at hinner
  exact ⟨_, by simp only [List.singleton_append, Source.group, hinner, if_true]; rfl⟩

/-- What a reader takes does not depend on what was taken before. -/
theorem captured (h : Reads p ts rest a) : ∃ tokens, Reads (captured p) ts rest (a, tokens) := by
  rcases h [] with ⟨now, hp⟩
  refine ⟨now.reverse, fun taken => ⟨now ++ taken, ?_⟩⟩
  simp only [Source.captured, hp]

/-- A form that does not use the tokens that it takes. -/
theorem form {p : Reader (List TokenTree → β)} (h : Reads p ts rest fun _ => b) :
    Reads (do let (form, tokens) ← Source.captured p; return form tokens) ts rest b := by
  rcases h.captured with ⟨tokens, hcaptured⟩
  exact hcaptured.after (Reads.pure _ _)

/-- The tokens that are kept do not matter for what is read. -/
theorem printedAs {tokens : α → List TokenTree} (h : Reads p ts rest a) :
    Reads (printedAs tokens p) ts rest a := by
  intro taken
  rcases h [] with ⟨now, hp⟩
  exact ⟨_, by simp only [Source.printedAs, hp]; rfl⟩

/-- A reader that reads all tokens runs to the end. -/
theorem run? (h : Reads p ts [] a) : Reader.run? p ts = some a := by
  rcases h [] with ⟨now, hp⟩
  rw [List.append_nil] at hp
  simp only [Reader.run?, hp]

end Reads

/-! ## Lists -/

/-- The tokens fall into elements of `p`, after which `stop` holds. -/
inductive ManyReads (stop : List TokenTree → Bool) (p : Reader α) (rest : List TokenTree) :
    List TokenTree → List α → Prop
  | nil : stop rest = true → ManyReads stop p rest [] []
  | cons {ts us : List TokenTree} {a : α} {as : List α} :
      stop (ts ++ us ++ rest) = false → ts ≠ [] → Reads p ts (us ++ rest) a →
      ManyReads stop p rest us as → ManyReads stop p rest (ts ++ us) (a :: as)

/-- The tokens fall into elements of `p` with separators between them, after which `stop` holds. -/
inductive SeparatedReads (stop : List TokenTree → Bool) (separator : String) (p : Reader α)
    (rest : List TokenTree) : List TokenTree → List α → Prop
  | nil : stop rest = true → SeparatedReads stop separator p rest [] []
  | last {ts : List TokenTree} {a : α} :
      stop (ts ++ rest) = false → Reads p ts rest a → stop rest = true →
      SeparatedReads stop separator p rest ts [a]
  | cons {ts us : List TokenTree} {t : TokenTree} {a : α} {as : List α} :
      stop (ts ++ t :: us ++ rest) = false → Reads p ts (t :: us ++ rest) a →
      stop (t :: us ++ rest) = false → atOp separator (t :: us ++ rest) = true → as ≠ [] →
      SeparatedReads stop separator p rest us as →
      SeparatedReads stop separator p rest (ts ++ t :: us) (a :: as)

/-- The tokens fall into elements of `p` with separators between them, after which no separator
follows. -/
inductive ChainedReads (stop : List TokenTree → Bool) (separator : String) (p : Reader α)
    (rest : List TokenTree) : List TokenTree → List α → Prop
  | last {ts : List TokenTree} {a : α} :
      stop (ts ++ rest) = false → Reads p ts rest a → atOp separator rest = false →
      ChainedReads stop separator p rest ts [a]
  | cons {ts us : List TokenTree} {t : TokenTree} {a : α} {as : List α} :
      stop (ts ++ t :: us ++ rest) = false → Reads p ts (t :: us ++ rest) a →
      atOp separator (t :: us ++ rest) = true → ChainedReads stop separator p rest us as →
      ChainedReads stop separator p rest (ts ++ t :: us) (a :: as)

section

variable {stop : List TokenTree → Bool} {separator : String} {p : Reader α}
  {ts rest : List TokenTree} {as : List α}

/-- The loop reads its elements if it may run more often than there are tokens. -/
theorem ManyReads.manyLoop (h : ManyReads stop p rest ts as) {fuel : Nat}
    (hfuel : ts.length < fuel) :
    Reads (manyLoop stop p fuel) ts rest as := by
  -- Induction on the derivation; every element takes a token and so pays for its step.
  induction h generalizing fuel with
  | nil hstop =>
    rcases Nat.exists_eq_add_of_lt hfuel with ⟨fuel, rfl⟩
    exact Reads.peek_true hstop (Reads.pure _ _)
  | @cons ts us a as hstop hne hp _ ih =>
    cases fuel with
    | zero => cases hfuel
    | succ fuel =>
      have hus : us.length < fuel := by
        have hpos : 0 < ts.length := List.length_pos_iff.mpr hne
        rw [List.length_append] at hfuel
        omega
      exact Reads.peek_false hstop (hp.bind ((ih hus).after (Reads.pure _ _)))

/-- A repetition reads its elements. -/
theorem ManyReads.many (h : ManyReads stop p rest ts as) : Reads (many stop p) ts rest as :=
  Reads.ahead_bind (h.manyLoop (by rw [List.length_append]; omega))

/-- The loop reads elements with separators if it may run more often than there are tokens. -/
theorem SeparatedReads.terminatedLoop (h : SeparatedReads stop separator p rest ts as)
    (hseparator : separator.length = 1) {fuel : Nat} (hfuel : ts.length < fuel) :
    Reads (terminatedLoop stop separator p fuel) ts rest (as, false) := by
  -- Induction on the derivation; every element takes at least one token, so the fuel is enough.
  induction h generalizing fuel with
  | nil hstop =>
    rcases Nat.exists_eq_add_of_lt hfuel with ⟨fuel, rfl⟩
    exact Reads.peek_true hstop (Reads.pure _ _)
  | last hstop hp hend =>
    cases fuel with
    | zero => cases hfuel
    | succ fuel =>
      exact Reads.peek_false hstop (hp.after (Reads.peek_true hend (Reads.pure _ _)))
  | @cons ts us t a as hstop hp hmore hop hne _ ih =>
    cases fuel with
    | zero => cases hfuel
    | succ fuel =>
      have hus : us.length < fuel := by
        rw [List.length_append, List.length_cons] at hfuel
        omega
      have hempty : as.isEmpty = false := by simpa using hne
      refine Reads.peek_false hstop (hp.bind (Reads.peek_false hmore ?_))
      have hop' : Reads (op separator) [t] (us ++ rest) () := Reads.op hop hseparator.symm
      refine hop'.bind ((ih hus).after ?_)
      simp only [hempty, Bool.or_false]
      exact Reads.pure _ _

/-- Elements with separators up to an end are read. -/
theorem SeparatedReads.terminated (h : SeparatedReads stop separator p rest ts as)
    (hseparator : separator.length = 1) : Reads (terminated stop separator p) ts rest (as, false) :=
  Reads.ahead_bind (h.terminatedLoop hseparator (by rw [List.length_append]; omega))

/-- The loop reads elements that go on with a separator if it may run more often than there are
tokens. -/
theorem ChainedReads.chainedLoop (h : ChainedReads stop separator p rest ts as)
    (hseparator : separator.length = 1) {fuel : Nat} (hfuel : ts.length < fuel) :
    Reads (chainedLoop stop separator p fuel) ts rest (as, false) := by
  -- As above, but the list ends where no separator follows.
  induction h generalizing fuel with
  | last hstop hp hop =>
    cases fuel with
    | zero => cases hfuel
    | succ fuel =>
      exact Reads.peek_false hstop (hp.after ((Reads.op?_false hop).before (Reads.pure _ _)))
  | @cons ts us t a as hstop hp hop hrest ih =>
    cases fuel with
    | zero => cases hfuel
    | succ fuel =>
      have hus : us.length < fuel := by
        rw [List.length_append, List.length_cons] at hfuel
        omega
      have hempty : as.isEmpty = false := by
        cases hrest <;> rfl
      refine Reads.peek_false hstop (hp.bind ?_)
      have hop' : Reads (op? separator) [t] (us ++ rest) true := Reads.op?_true hop hseparator.symm
      refine hop'.bind ((ih hus).after ?_)
      simp only [hempty, Bool.or_false]
      exact Reads.pure _ _

/-- Elements that go on with a separator are read. -/
theorem ChainedReads.chained (h : ChainedReads stop separator p rest ts as)
    (hseparator : separator.length = 1) : Reads (chained stop separator p) ts rest (as, false) :=
  Reads.ahead_bind (h.chainedLoop hseparator (by rw [List.length_append]; omega))

end

end Memberwise.Source
