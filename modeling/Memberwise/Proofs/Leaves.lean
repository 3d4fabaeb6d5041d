import Memberwise.Proofs.Spelling

/-!
# Memberwise.Proofs.Leaves — lengths and constants that are read again

The lengths of arrays and the constants among arguments are printed as they were read. So a text is
read as the type that it was printed from only if the expressions in it are. This holds of literals
of every kind (`readable_literal`), of the truth values and the negative numbers among constants
(`readableConst_word`, `readableConst_negative`), and of paths without arguments as lengths
(`readableLength_path`).
-/

namespace Memberwise

open Source Token

/-! ## Runs of readers -/

section

variable {α β : Type}

/-- A reader goes on where the one before it stopped. -/
theorem bind_of_eq {p : Reader α} {f : α → Reader β} {c d : Cursor} {a : α}
    {r : Option (β × Cursor)} (hp : p c = some (a, d)) (hf : f a d = r) : (p >>= f) c = r := by
  have hbind : (p >>= f) c = (p c).bind fun s => f s.1 s.2 := rfl
  rw [hbind, hp]
  exact hf

/-- A question about the tokens that are left takes none. -/
theorem peek_of_eq {q : List TokenTree → Bool} {ts : List TokenTree} {b : Bool} (h : q ts = b)
    (taken : List TokenTree) : peek q ⟨ts, taken⟩ = some (b, ⟨ts, taken⟩) :=
  congrArg (fun b => some (b, _)) h

end

/-! ## Literals -/

/-- A literal is read again as a length or a constant, whatever its kind. -/
theorem readable_literal {text : String} (h : LiteralText text.toList) :
    ReadableLength [.literal text] ∧ ReadableConst [.literal text] := by
  constructor
  · intro rest
    refine ⟨_, Lexes.literal h (EndsToken.cons (by decide) rest), fun depth hdepth => ?_⟩
    -- the depth is that of a text with one token, and so of at least eight rules
    obtain ⟨d, rfl⟩ : ∃ d, depth = d + 8 :=
      ⟨depth - 8, by simp [TokenTree.sizeAll, TokenTree.size] at hdepth; omega⟩
    exact ⟨.plain, rfl⟩
  · intro rest hrest
    exact ⟨_, Lexes.literal h hrest.endsToken, fun depth next _ _ => ⟨rfl, rfl, rfl⟩⟩

/-- A truth value is read again as a constant. -/
theorem readableConst_word {word : String} (h : word ∈ ["true", "false"]) :
    ReadableConst [.ident (.plain word)] := by
  intro rest hrest
  rcases List.mem_pair.mp h with rfl | rfl
  · have hlexical : (Ident.plain "true").Lexical := by decide
    exact ⟨_, Lexes.ident hlexical hrest.endsWord, fun depth next _ _ => ⟨rfl, rfl, rfl⟩⟩
  · have hlexical : (Ident.plain "false").Lexical := by decide
    exact ⟨_, Lexes.ident hlexical hrest.endsWord, fun depth next _ _ => ⟨rfl, rfl, rfl⟩⟩

/-- A negative number is read again as a constant. -/
theorem readableConst_negative {text : String} (h : LiteralText text.toList)
    (hnumber : isNumberText text = true) :
    ReadableConst [.punct '-' false, .literal text] := by
  intro rest hrest
  have hlexes := lexes_punct_cons (c := '-') (by decide) (by decide)
    (Lexes.space (Lexes.literal h hrest.endsToken))
  refine ⟨_, by simpa [TokenTree.textAll, TokenTree.text, TokenTree.isJoint] using hlexes, ?_⟩
  intro depth next _ _
  -- A minus before a number is tested like a literal.
  have hliteral : atLiteral (.punct '-' false :: .literal text :: next) = true := hnumber
  have hread : Source.literal ⟨.punct '-' false :: .literal text :: next, []⟩ =
      some ((), ⟨next, [.literal text, .punct '-' false]⟩) := by
    refine bind_of_eq (a := .punct '-' false :: .literal text :: next) rfl ?_
    simp only [hnumber, if_true]
    rfl
  exact ⟨congrArg (· || false) hliteral, rfl, bind_of_eq (peek_of_eq hliteral []) hread⟩

/-! ## Paths as lengths -/

/-- The tokens of the segments after the first one. -/
def segmentTokens : List Ident → List TokenTree
  | [] => []
  | i :: is => colons false ++ .ident i :: segmentTokens is

/-- The tokens of a path without arguments. -/
def plainPathTokens (absolute : Bool) (first : Ident) (more : List Ident) : List TokenTree :=
  (if absolute then colons false else []) ++ .ident first :: segmentTokens more

theorem length_le_segmentTokens (is : List Ident) : is.length ≤ (segmentTokens is).length := by
  induction is with
  | nil => exact Nat.le_refl 0
  | cons i is ih =>
    simp only [segmentTokens, colons, List.length_append, List.length_cons, List.length_nil]
    omega

section

variable (r : Rules)

/-- An identifier is taken as a segment. -/
theorem pathSegment_ident {i : Ident} (hi : isSegment i = true) (more : List Ident)
    (taken : List TokenTree) :
    pathSegment r true ⟨.ident i :: segmentTokens more, taken⟩ =
      some (.mk i .none, ⟨segmentTokens more, .ident i :: taken⟩) := by
  -- What follows the name is `::` and another name or nothing, so no arguments are read.
  have hangle : atAngle true (segmentTokens more) = false := by
    cases more <;> rfl
  cases hlone : isLone i with
  | true => exact bind_of_eq (peek_of_eq hlone taken) rfl
  | false =>
    refine bind_of_eq (peek_of_eq hlone taken) ?_
    rcases not_isLone_cases hi hlone with hself | ⟨hself, hname⟩
    · refine bind_of_eq (peek_of_eq hself taken) ?_
      exact bind_of_eq rfl (bind_of_eq (peek_of_eq hangle _) rfl)
    · refine bind_of_eq (peek_of_eq hself taken) ?_
      refine bind_of_eq (bind_of_eq (peek_of_eq hname taken) rfl) ?_
      exact bind_of_eq (peek_of_eq hangle _) rfl

/-- The segments after the first one are taken to the end. -/
theorem manyLoop_segments {more : List Ident} (h : ∀ i ∈ more, isSegment i = true) {fuel : Nat}
    (hfuel : more.length < fuel) (taken : List TokenTree) :
    manyLoop (fun ts => !atNextSegment ts) (do op "::"; pathSegment r true) fuel
        ⟨segmentTokens more, taken⟩ =
      some (more.map fun i => .mk i .none, ⟨[], (segmentTokens more).reverse ++ taken⟩) := by
  -- Induction on the segments; each takes one step of the loop's fuel.
  induction more generalizing fuel taken with
  | nil =>
    obtain ⟨fuel, rfl⟩ := Nat.exists_eq_succ_of_ne_zero (Nat.ne_of_gt hfuel)
    rfl
  | cons i more ih =>
    obtain ⟨hi, hmore⟩ := List.forall_mem_cons.mp h
    obtain ⟨fuel, rfl⟩ := Nat.exists_eq_succ_of_ne_zero (Nat.ne_of_gt (Nat.zero_lt_of_lt hfuel))
    have hsegment : (do op "::"; pathSegment r true : Reader PathSegment)
        ⟨segmentTokens (i :: more), taken⟩ =
          some (.mk i .none, ⟨segmentTokens more, .ident i :: (colons false).reverse ++ taken⟩) :=
      bind_of_eq rfl (pathSegment_ident r hi more _)
    have hrest := ih hmore (Nat.lt_of_succ_lt_succ hfuel)
      (.ident i :: (colons false).reverse ++ taken)
    refine bind_of_eq (peek_of_eq (b := false) rfl taken) ?_
    refine bind_of_eq hsegment (bind_of_eq hrest ?_)
    simp [segmentTokens, colons]
    rfl

/-- A path without arguments is taken to the end. -/
theorem anyPath_plain {absolute : Bool} {first : Ident} {more : List Ident}
    (hfirst : isSegment first = true) (hmore : ∀ i ∈ more, isSegment i = true) :
    anyPath r true ⟨plainPathTokens absolute first more, []⟩ =
      some (some (.mk absolute (.mk first .none :: more.map fun i => .mk i .none)),
        ⟨[], (plainPathTokens absolute first more).reverse⟩) := by
  -- The fuel is the number of tokens, of which every segment has at least one.
  have hmany : ∀ taken, many (fun ts => !atNextSegment ts) (do op "::"; pathSegment r true)
      ⟨segmentTokens more, taken⟩ =
        some (more.map fun i => .mk i .none, ⟨[], (segmentTokens more).reverse ++ taken⟩) := by
    intro taken
    have hfuel : more.length < (segmentTokens more).length + 1 := by
      have hlength := length_le_segmentTokens more
      omega
    exact bind_of_eq rfl (manyLoop_segments r hmore hfuel taken)
  cases absolute with
  | true =>
    refine bind_of_eq (a := false) rfl (bind_of_eq (d := ⟨[], _⟩) (a := .mk true _) ?_ rfl)
    refine bind_of_eq (a := true) rfl ?_
    refine bind_of_eq (pathSegment_ident r hfirst more _) (bind_of_eq (hmany _) ?_)
    simp [plainPathTokens, colons]
    rfl
  | false =>
    refine bind_of_eq (a := false) rfl (bind_of_eq (d := ⟨[], _⟩) (a := .mk false _) ?_ rfl)
    refine bind_of_eq (a := false) rfl ?_
    refine bind_of_eq (pathSegment_ident r hfirst more _) (bind_of_eq (hmany _) ?_)
    simp [plainPathTokens]
    rfl

/-- A path without arguments can be the first operand of an expression, and starts as no other
operand does. -/
theorem operand_plainPath {absolute : Bool} {first : Ident} (more : List Ident)
    (hhead : absolute = false → isHead first = true) :
    operand r true ⟨plainPathTokens absolute first more, []⟩ =
      pathExpr r true ⟨plainPathTokens absolute first more, []⟩ := by
  -- A plain path is neither of the operands that are tried before a path.
  let ts := plainPathTokens absolute first more
  obtain ⟨hliteral, hasync, hclosure, hbuiltin, hpath⟩ : atLiteral ts = false ∧
      atAsyncBlock ts = false ∧ atClosure ts = false ∧
      (atWord "builtin" ts && atOp "#" (ts.drop 1)) = false ∧ atPath ts = true := by
    cases absolute with
    | true => exact ⟨rfl, rfl, rfl, rfl, rfl⟩
    | false =>
      have hword : ∀ {w : String}, w ∈ Ident.reserved → w ∉ Source.pathWords →
          atWord w ts = false :=
        isWord_eq_false_of_isHead (hhead rfl)
      have hbuiltin : atOp "#" (ts.drop 1) = false := by
        -- What follows the first identifier is `::` or nothing, so it is no `#`.
        cases more <;> rfl
      refine ⟨?_, ?_, ?_, by rw [hbuiltin, Bool.and_false], ?_⟩
      · exact congrArg₂ or (hword (w := "true") (by decide) (by decide))
          (hword (w := "false") (by decide) (by decide))
      · simp (disch := decide) [atAsyncBlock, hword]
      · simp (disch := decide) [atClosure, atClosureBinder, hword]
        rfl
      · have hstart : (atName ts || atSomeWord Source.pathWords ts) = true := hhead rfl
        simp only [atPath, Bool.or_eq_true] at hstart ⊢
        tauto
  refine bind_of_eq (a := ts) rfl ?_
  simp only [hliteral, hasync, hclosure, hbuiltin, hpath, Bool.false_eq_true, if_false, if_true]

end

/-- A path without arguments is taken as an expression, to the end. -/
theorem expr_plainPath {absolute : Bool} {first : Ident} {more : List Ident}
    (hhead : absolute = false → isHead first = true) (hfirst : isSegment first = true)
    (hmore : ∀ i ∈ more, isSegment i = true) (depth : Nat) :
    expr (rules (depth + 1)) true ⟨plainPathTokens absolute first more, []⟩ =
      some (.plain, ⟨[], (plainPathTokens absolute first more).reverse⟩) := by
  have hbang : ∀ p, atMacro p [] = false := by simp [atMacro, atOp, atOpChars]
  have hpath : pathExpr (rules depth) true ⟨plainPathTokens absolute first more, []⟩ =
      some (.plain, ⟨[], (plainPathTokens absolute first more).reverse⟩) := by
    refine bind_of_eq (anyPath_plain _ hfirst hmore) (bind_of_eq (a := []) rfl ?_)
    simp only [hbang]
    rfl
  have hoperand := (operand_plainPath (rules depth) more hhead).trans hpath
  have hunary : (rules (depth + 1)).unary true ⟨plainPathTokens absolute first more, []⟩ =
      some (.plain, ⟨[], (plainPathTokens absolute first more).reverse⟩) := by
    have hattributes : attributes (rules depth) ⟨plainPathTokens absolute first more, []⟩ =
        some ([], ⟨plainPathTokens absolute first more, []⟩) := by
      cases absolute <;> rfl
    refine bind_of_eq hattributes (bind_of_eq rfl ?_)
    -- the first token is no operator, so that the operand is read at once
    cases absolute with
    | true => exact bind_of_eq hoperand rfl
    | false => exact bind_of_eq hoperand rfl
  exact bind_of_eq hunary rfl

/-- Double colons and a space before a text. -/
theorem lexes_colons_space {cs rest : List Char} {ts : List TokenTree} (h : Lexes cs ts rest) :
    Lexes (':' :: ':' :: ' ' :: cs) (colons false ++ ts) rest := by
  have hspace : startsPunct (' ' :: cs ++ rest) = false := rfl
  have hcolons := lexes_colons (Lexes.space h)
  rwa [hspace] at hcolons

/-- The printed tokens of a path are lexed as they were printed. -/
theorem lexes_segmentTokens {first : Ident} {more : List Ident} (hfirst : first.Lexical)
    (hmore : ∀ i ∈ more, i.Lexical) {rest : List Char} (hrest : EndsWord rest) :
    Lexes (TokenTree.textAll (.ident first :: segmentTokens more)).toList
      (.ident first :: segmentTokens more) rest := by
  -- Induction on the further segments; the colons between them are printed with spaces around.
  induction more generalizing first with
  | nil => exact Lexes.ident hfirst hrest
  | cons i more ih =>
    obtain ⟨hi, hmore⟩ := List.forall_mem_cons.mp hmore
    have hafter := lexes_colons_space (ih hi hmore)
    have hall := (Lexes.ident hfirst (EndsWord.cons (c := ' ') (by decide) _)).append
      (Lexes.space hafter)
    have htext : TokenTree.textAll (.ident first :: segmentTokens (i :: more)) =
        first.text ++ " " ++ (":" ++ "" ++ (":" ++ " " ++
          TokenTree.textAll (.ident i :: segmentTokens more))) := rfl
    rw [htext]
    simpa [segmentTokens] using hall

/-- A path without arguments is read again as a length, if its words are read as what they are. -/
theorem readableLength_path {absolute : Bool} {first : Ident} {more : List Ident}
    (hhead : absolute = false → isHead first = true)
    (h : ∀ i ∈ first :: more, i.Lexical ∧ isSegment i = true) :
    ReadableLength (plainPathTokens absolute first more) := by
  obtain ⟨⟨hfirst, hfirst'⟩, hmore⟩ := List.forall_mem_cons.mp h
  intro rest
  have hsegments := lexes_segmentTokens hfirst (fun i hi => (hmore i hi).1)
    (EndsWord.cons (c := ']') (by decide) rest)
  refine ⟨plainPathTokens absolute first more, ?_, fun depth hdepth => ?_⟩
  · cases absolute with
    | true =>
      -- The leading colons are written as two signs and a space, which read as one operator again.
      have htext : TokenTree.textAll (plainPathTokens true first more) =
          ":" ++ "" ++ (":" ++ " " ++ TokenTree.textAll (.ident first :: segmentTokens more)) := rfl
      have hall := lexes_colons_space hsegments
      rw [htext]
      simpa [plainPathTokens] using hall
    | false => exact hsegments
  -- The depth of the rules is not zero, as there is at least one token.
  · have hne : plainPathTokens absolute first more ≠ [] := by
      cases absolute <;> simp [plainPathTokens, colons]
    have hpos := sizeAll_pos hne
    obtain ⟨d, rfl⟩ : ∃ d, depth = d + 1 := ⟨depth - 1, by omega⟩
    exact ⟨.plain, expr_plainPath hhead hfirst' (fun i hi => (hmore i hi).2) d⟩

end Memberwise
