import Abla.Proofs.Syntax.Lexing

/-!
# The parser is total

Read through a reader that never fails, any text gives a file or a parse error of its unit
(`parse_total`): the parser raises none of its internal errors, at any depth of interpolations.

Each grammar function is shown `Fine` on a `TokenStream.Sound` stream: it succeeds on a sound
stream or fails with a parse error. Soundness survives every step because a step only drops
tokens (`advance_fine`), and the only token the parser never steps past is the end token, which
a sound stream without a lexer failure ends with. The recursion of these lemmas follows that of
the grammar functions, with the same measures.

The text of a string token is read a second time by `pieces`. It is paired, and the scan keeps
to the lexer's units: an escape takes two characters, and an interpolation resumes after a
closing brace, which is never the first half of an escape (`Paired.interpText`); so no escape
runs off the end of the text. An interpolation's text is shorter than the string token holding
it, and that token is no longer than the text it was lexed from, which bounds the nesting
(`readInterpolation_fine`).
-/

namespace Abla

/-- A stream the parser can walk: its tokens, with the lexer's failure after them, are sound
lexer output. -/
def TokenStream.Sound (B : Nat) (s : TokenStream) : Prop :=
  Lexed.Sound B ⟨s.cur :: s.rest, s.stop⟩

/-- Binding what a grammar function took from a sound stream: the rest of the parse starts on
a sound stream. -/
theorem Fine.taken {B : Nat} {α β : Type} {s : TokenStream} {p : β → Prop}
    {x : Except Failure (Taken s α)} {f : Taken s α → Except Failure β}
    (hx : Fine (·.next.Sound B) x)
    (hf : ∀ v n h, n.Sound B → Fine p (f ⟨v, n, h⟩)) : Fine p (x >>= f) :=
  hx.bind fun ⟨v, n, h⟩ hq => hf v n h hq

theorem Fine.parsed {B : Nat} {α β : Type} {s : TokenStream} {p : β → Prop}
    {x : Except Failure (Parsed s α)} {f : Parsed s α → Except Failure β}
    (hx : Fine (·.next.Sound B) x)
    (hf : ∀ v n h, n.Sound B → Fine p (f ⟨v, n, h⟩)) : Fine p (x >>= f) :=
  hx.bind fun ⟨v, n, h⟩ hq => hf v n h hq

theorem Grammar.interpText_fst_le :
    ∀ (d : Nat) (cs : List Char), (Grammar.interpText d cs).1.length ≤ cs.length
  | _, [] => by simp [Grammar.interpText]
  | d, c :: cs => by
    have h1 := interpText_fst_le (d + 1) cs
    have h2 := interpText_fst_le (d - 1) cs
    have h3 := interpText_fst_le d cs
    unfold Grammar.interpText
    repeat' split
    all_goals simp only [List.length_cons, List.length_nil]; omega

theorem Grammar.after_rbrace_cons {c : Char} {cs r : List Char}
    (h : r = [] ∨ ∃ p, cs = p ++ '}' :: r) : r = [] ∨ ∃ p, c :: cs = p ++ '}' :: r :=
  h.imp_right fun ⟨p, hp⟩ => ⟨c :: p, by simp [hp]⟩

/-- What follows an interpolation's text is the end, or comes after a closing brace. -/
theorem Grammar.interpText_snd :
    ∀ (d : Nat) (cs : List Char),
      (Grammar.interpText d cs).2 = [] ∨ ∃ p, cs = p ++ '}' :: (Grammar.interpText d cs).2
  | _, [] => by simp [Grammar.interpText]
  | d, c :: cs => by
    unfold Grammar.interpText
    split
    · exact after_rbrace_cons (interpText_snd (d + 1) cs)
    split
    · next h =>
      split
      · exact .inr ⟨[], by simp [h]⟩
      · exact after_rbrace_cons (interpText_snd (d - 1) cs)
    · exact after_rbrace_cons (interpText_snd d cs)

/-- The text after an interpolation is read from a unit boundary of the lexer's. -/
theorem Paired.interpText {cs : List Char} (h : Paired cs) (d : Nat) :
    Paired (Grammar.interpText d cs).2 := by
  rcases Grammar.interpText_snd d cs with hr | ⟨p, hp⟩
  · rw [hr]; exact .nil
  · exact h.after_rbrace hp

namespace Grammar

variable {B : Nat}

theorem isParse_parseError (span : Span) (message : String) :
    (parseError span message).IsParse := ⟨rfl, rfl⟩

/-- Stepping past a token other than the end token. -/
theorem advance_fine {s : TokenStream} (hs : s.Sound B) (hk : s.kind ≠ .eof) :
    Fine (·.next.Sound B) (advance s) := by
  unfold advance
  split
  · next t ts h =>
    refine ⟨hs.stop, fun hn => ?_, fun u hu => hs.fits u (by simp [h, hu])⟩
    obtain ⟨u, hu, hk⟩ := hs.ends hn
    exact ⟨u, by simpa [h] using hu, hk⟩
  · next h =>
    -- the current token is the last: past it lies the lexer's failure, or it is the end token
    cases hst : s.stop with
    | none =>
      obtain ⟨u, hu, hk'⟩ := hs.ends hst
      simp [h] at hu
      subst hu
      exact absurd hk' hk
    | some f => exact hs.stop f hst

/-- Taking a token of a kind other than the end: the value taken is the current token. -/
theorem want_spec {s : TokenStream} {k : TokenKind} (hs : s.Sound B) (hk : k ≠ .eof) :
    Fine (fun r => r.val = s.cur ∧ s.kind = k ∧ r.next.Sound B) (want k s) := by
  unfold want
  split
  · next h =>
    refine (advance_fine hs (h ▸ hk)).taken fun _ n hn hs1 => ?_
    exact ⟨rfl, h, hs1⟩
  · exact isParse_parseError ..

theorem want_fine {s : TokenStream} {k : TokenKind} (hs : s.Sound B) (hk : k ≠ .eof) :
    Fine (·.next.Sound B) (want k s) :=
  (want_spec hs hk).mono fun _ h => h.2.2

theorem newlines_fine {s : TokenStream} (hs : s.Sound B) :
    Fine (·.next.Sound B) (newlines s) := by
  rw [newlines]
  split
  · next h =>
    refine (advance_fine hs (by simp [h])).taken fun _ s1 h1 hs1 => ?_
    refine (newlines_fine hs1).parsed fun _ s2 h2 hs2 => ?_
    exact hs2
  · exact hs
termination_by s.size

/-- An interpolation reader that reads every text shorter than `B` without an internal error. -/
def Reads (B : Nat) (interp : InterpReader) : Prop :=
  ∀ text pos, text.length < B → Fine (fun _ => True) (interp text pos)

theorem opAt_eof (level : Nat) : opAt level .eof = none := by
  rcases level with _ | _ | _ | _ | _ <;> rfl

section
variable {interp : InterpReader}

/-- Reading the pieces of a paired text no longer than `B` raises no internal error: an
escape never runs off the end, and every interpolation's text is shorter than `B`. -/
theorem pieces_fine (hi : Reads B interp) (line col : Nat) :
    ∀ (i : Nat) (cs buf : List Char) (acc : List Piece), Paired cs → cs.length ≤ B →
      Fine (fun _ => True) (pieces interp line col i cs buf acc)
  | i, [], buf, acc, _, _ => by
    rw [pieces]
    trivial
  | i, c :: cs, buf, acc, hc, hB => by
    rw [pieces.eq_def]
    dsimp only
    split
    · next h =>
      -- the lexer paired this backslash with the character after it
      subst h
      cases hc with
      | char hne _ => exact absurd rfl hne
      | escape d hcs =>
        dsimp only
        split
        · exact pieces_fine hi line col _ _ _ _ hcs (by simp at hB; omega)
        · exact isParse_parseError ..
    split
    · next h =>
      -- an interpolation: its text runs to the matching brace, and the scan resumes after it
      obtain ⟨rfl, hr⟩ := h
      have hcs : Paired cs.tail := by
        cases hc with
        | char _ h =>
          cases h with
          | nil => exact .nil
          | escape => simp at hr
          | char _ h => exact h
      have hlen := interpText_fst_le 1 cs.tail
      have hrest := interpText_rest_le 1 cs.tail
      have htail : cs.tail.length = cs.length - 1 := List.length_tail
      simp only [List.length_cons] at hB
      refine (hi _ _ (by omega)).bind fun _ _ => ?_
      exact pieces_fine hi line col _ _ _ _ (hcs.interpText 1) (by omega)
    · next h1 _ =>
      cases hc with
      | escape => exact absurd rfl h1
      | char _ hcs => exact pieces_fine hi line col _ _ _ _ hcs (by simp at hB; omega)
termination_by _ cs => cs.length

theorem stringLit_fine (hi : Reads B interp) (s : TokenStream) (hs : s.Sound B) :
    Fine (·.next.Sound B) (stringLit interp s) := by
  rw [stringLit]
  refine (want_spec hs (by decide)).bind fun ⟨tok, s1, h1⟩ ⟨htok, hk, hs1⟩ => ?_
  obtain rfl : tok = s.cur := htok
  have hfit : s.cur.Fits B := hs.fits _ (List.mem_cons_self ..)
  refine (pieces_fine hi _ _ 0 _ [] [] (hfit.2 hk) hfit.1).bind fun _ _ => ?_
  exact hs1

/-! ## Expressions -/

mutual

/-- The expression grammar on a sound stream. Each lemma follows its function, with the same
measure; the interpolations inside string literals are read by `interp`. -/
theorem expr_fine (hi : Reads B interp) (s : TokenStream) (hs : s.Sound B) :
    Fine (·.next.Sound B) (expr interp s) := by
  rw [expr]
  split
  · refine (want_fine hs (by decide)).taken fun _ s1 h1 hs1 => ?_
    refine (expr_fine hi s1 hs1).taken fun _ s2 h2 hs2 => ?_
    exact hs2
  · exact binary_fine hi 0 s hs
termination_by s.size * 32 + 20

theorem binary_fine (hi : Reads B interp) (level : Nat) (s : TokenStream) (hs : s.Sound B) :
    Fine (·.next.Sound B) (binary interp level s) := by
  rw [binary]
  split
  · refine (binary_fine hi (level + 1) s hs).taken fun lhs s1 h1 hs1 => ?_
    refine (binaryRest_fine hi level lhs s1 hs1).parsed fun _ s2 h2 hs2 => ?_
    exact hs2
  · exact callChain_fine hi s hs
termination_by s.size * 32 + (18 - min level 4)

theorem binaryRest_fine (hi : Reads B interp) (level : Nat) (lhs : Expr) (s : TokenStream)
    (hs : s.Sound B) : Fine (·.next.Sound B) (binaryRest interp level lhs s) := by
  rw [binaryRest]
  split
  · exact hs
  · next op hop =>
    have hk : s.kind ≠ .eof := by
      intro h
      rw [h, opAt_eof] at hop
      cases hop
    refine (advance_fine hs hk).taken fun _ s1 h1 hs1 => ?_
    refine (newlines_fine hs1).parsed fun _ s2 h2 hs2 => ?_
    refine (binary_fine hi (level + 1) s2 hs2).taken fun rhs s3 h3 hs3 => ?_
    refine (binaryRest_fine hi level _ s3 hs3).parsed fun _ s4 h4 hs4 => ?_
    exact hs4
termination_by s.size * 32

theorem callChain_fine (hi : Reads B interp) (s : TokenStream) (hs : s.Sound B) :
    Fine (·.next.Sound B) (callChain interp s) := by
  rw [callChain]
  refine (primary_fine hi s hs).taken fun root s1 h1 hs1 => ?_
  refine (suffixes_fine hi root s1 hs1).parsed fun _ s2 h2 hs2 => ?_
  exact hs2
termination_by s.size * 32 + 13

theorem suffixes_fine (hi : Reads B interp) (root : Expr) (s : TokenStream) (hs : s.Sound B) :
    Fine (·.next.Sound B) (suffixes interp root s) := by
  rw [suffixes]
  split
  · refine (callSuffix_fine hi root s hs).taken fun c s1 h1 hs1 => ?_
    refine (suffixes_fine hi c s1 hs1).parsed fun _ s2 h2 hs2 => ?_
    exact hs2
  · split
    · refine (funcLit_fine hi s hs).taken fun lit s1 h1 hs1 => ?_
      refine (suffixes_fine hi _ s1 hs1).parsed fun _ s2 h2 hs2 => ?_
      exact hs2
    · exact hs
termination_by s.size * 32 + 11

theorem callSuffix_fine (hi : Reads B interp) (fn : Expr) (s : TokenStream) (hs : s.Sound B) :
    Fine (·.next.Sound B) (callSuffix interp fn s) := by
  rw [callSuffix]
  refine (want_fine hs (by decide)).taken fun _ s1 h1 hs1 => ?_
  refine (newlines_fine hs1).parsed fun _ s2 h2 hs2 => ?_
  refine (callArgs_fine hi [] s2 hs2).parsed fun args s3 h3 hs3 => ?_
  refine (want_fine hs3 (by decide)).taken fun rp s4 h4 hs4 => ?_
  dsimp only
  split
  · refine (funcLit_fine hi s4 hs4).taken fun lit s5 h5 hs5 => ?_
    exact hs5
  · exact hs4
termination_by s.size * 32 + 10

theorem callArgs_fine (hi : Reads B interp) (acc : List Expr) (s : TokenStream) (hs : s.Sound B) :
    Fine (·.next.Sound B) (callArgs interp acc s) := by
  rw [callArgs]
  split
  · exact hs
  · refine (expr_fine hi s hs).taken fun a s1 h1 hs1 => ?_
    refine (newlines_fine hs1).parsed fun _ s2 h2 hs2 => ?_
    dsimp only
    split
    · next hc =>
      refine (advance_fine hs2 (by rw [hc]; decide)).taken fun _ s3 h3 hs3 => ?_
      refine (newlines_fine hs3).parsed fun _ s4 h4 hs4 => ?_
      refine (callArgs_fine hi _ s4 hs4).parsed fun _ s5 h5 hs5 => ?_
      exact hs5
    · split
      · exact hs2
      · exact isParse_parseError ..
termination_by s.size * 32 + 21

theorem primary_fine (hi : Reads B interp) (s : TokenStream) (hs : s.Sound B) :
    Fine (·.next.Sound B) (primary interp s) := by
  rw [primary]
  split
  · refine (want_fine hs (by decide)).taken fun _ s1 h1 hs1 => ?_
    exact hs1
  · refine (want_fine hs (by decide)).taken fun _ s1 h1 hs1 => ?_
    exact hs1
  · exact stringLit_fine hi s hs
  · exact funcLit_fine hi s hs
  · next h =>
    refine (advance_fine hs (by rw [h]; decide)).taken fun _ s1 h1 hs1 => ?_
    refine (newlines_fine hs1).parsed fun _ s2 h2 hs2 => ?_
    refine (expr_fine hi s2 hs2).taken fun e s3 h3 hs3 => ?_
    refine (newlines_fine hs3).parsed fun _ s4 h4 hs4 => ?_
    refine (want_fine hs4 (by decide)).taken fun _ s5 h5 hs5 => ?_
    exact hs5
  · exact isParse_parseError ..
termination_by s.size * 32 + 12

theorem funcLit_fine (hi : Reads B interp) (s : TokenStream) (hs : s.Sound B) :
    Fine (·.next.Sound B) (funcLit interp s) := by
  rw [funcLit]
  refine (block_fine hi s hs).taken fun b s1 h1 hs1 => ?_
  exact hs1
termination_by s.size * 32 + 6

theorem block_fine (hi : Reads B interp) (s : TokenStream) (hs : s.Sound B) :
    Fine (·.next.Sound B) (block interp s) := by
  rw [block]
  refine (want_fine hs (by decide)).taken fun lb s1 h1 hs1 => ?_
  refine (blockStmts_fine hi [] s1 hs1).parsed fun stmts s2 h2 hs2 => ?_
  refine (want_fine hs2 (by decide)).taken fun rb s3 h3 hs3 => ?_
  exact hs3
termination_by s.size * 32 + 5

theorem blockStmts_fine (hi : Reads B interp) (acc : List Stmt) (s : TokenStream) (hs : s.Sound B) :
    Fine (·.next.Sound B) (blockStmts interp acc s) := by
  rw [blockStmts]
  refine (newlines_fine hs).parsed fun _ s1 h1 hs1 => ?_
  dsimp only
  split
  · exact hs1
  · refine (stmt_fine hi s1 hs1).taken fun st s2 h2 hs2 => ?_
    dsimp only
    split
    · next hc =>
      refine (advance_fine hs2 (by rw [hc]; decide)).taken fun _ s3 h3 hs3 => ?_
      refine (blockStmts_fine hi _ s3 hs3).parsed fun _ s4 h4 hs4 => ?_
      exact hs4
    · split
      · refine (blockStmts_fine hi _ s2 hs2).parsed fun _ s3 h3 hs3 => ?_
        exact hs3
      · exact isParse_parseError ..
termination_by s.size * 32 + 23

theorem stmt_fine (hi : Reads B interp) (s : TokenStream) (hs : s.Sound B) :
    Fine (·.next.Sound B) (stmt interp s) := by
  rw [stmt]
  split
  · refine (want_fine hs (by decide)).taken fun rt s1 h1 hs1 => ?_
    dsimp only
    split
    · exact hs1
    · refine (expr_fine hi s1 hs1).taken fun v s2 h2 hs2 => ?_
      exact hs2
  · refine (expr_fine hi s hs).taken fun e s1 h1 hs1 => ?_
    exact hs1
termination_by s.size * 32 + 22

end

/-! ## Type labels -/

mutual

theorem typeLabel_fine (s : TokenStream) (hs : s.Sound B) :
    Fine (·.next.Sound B) (typeLabel s) := by
  rw [typeLabel]
  split
  · refine (want_fine hs (by decide)).taken fun t s1 h1 hs1 => ?_
    dsimp only
    split
    · next hk =>
      refine (advance_fine hs1 (by rw [hk]; decide)).taken fun _ s2 h2 hs2 => ?_
      refine (typeArgs_fine [] s2 hs2).taken fun ps s3 h3 hs3 => ?_
      refine (want_fine hs3 (by decide)).taken fun gt s4 h4 hs4 => ?_
      exact hs4
    · exact hs1
  · next hk =>
    refine (advance_fine hs (by rw [hk]; decide)).taken fun _ s1 h1 hs1 => ?_
    refine (funcTypeParams_fine [] s1 hs1).bind
      fun ⟨ps, s2, h2⟩ (⟨hs2, hk2⟩ : s2.Sound B ∧ s2.kind = .rparen) => ?_
    -- the parameter types end on the closing parenthesis, so the step past it is allowed
    refine (advance_fine hs2 (by rw [hk2]; decide)).taken fun _ s3 h3 hs3 => ?_
    refine (want_fine hs3 (by decide)).taken fun _ s4 h4 hs4 => ?_
    refine (typeLabel_fine s4 hs4).taken fun r s5 h5 hs5 => ?_
    exact hs5
  · exact isParse_parseError ..
termination_by s.size * 4 + 2

theorem typeArgs_fine (acc : List TypeLabel) (s : TokenStream) (hs : s.Sound B) :
    Fine (·.next.Sound B) (typeArgs acc s) := by
  rw [typeArgs]
  refine (typeLabel_fine s hs).taken fun t s1 h1 hs1 => ?_
  dsimp only
  split
  · next hk =>
    refine (advance_fine hs1 (by rw [hk]; decide)).taken fun _ s2 h2 hs2 => ?_
    refine (typeArgs_fine _ s2 hs2).taken fun r s3 h3 hs3 => ?_
    exact hs3
  · exact hs1
termination_by s.size * 4 + 3

/-- The parameter types of a function type end on its closing parenthesis. -/
theorem funcTypeParams_fine (acc : List TypeLabel) (s : TokenStream) (hs : s.Sound B) :
    Fine (fun r => r.next.Sound B ∧ r.next.kind = .rparen) (funcTypeParams acc s) := by
  rw [funcTypeParams]
  split
  · next hk => exact ⟨hs, hk⟩
  · refine (typeLabel_fine s hs).taken fun t s1 h1 hs1 => ?_
    dsimp only
    split
    · next hk =>
      refine (advance_fine hs1 (by rw [hk]; decide)).taken fun _ s2 h2 hs2 => ?_
      refine (funcTypeParams_fine _ s2 hs2).bind fun ⟨r, s3, h3⟩ h => ?_
      exact h
    · split
      · next hk => exact ⟨hs1, hk⟩
      · exact isParse_parseError ..
termination_by s.size * 4 + 3

end

/-! ## Declarations -/

theorem modifiers_fine (hi : Reads B interp) (acc : List Modifier) (s : TokenStream)
    (hs : s.Sound B) : Fine (·.next.Sound B) (modifiers interp acc s) := by
  rw [modifiers]
  split
  · next hk =>
    refine (advance_fine hs (by rw [hk]; decide)).taken fun _ s1 h1 hs1 => ?_
    dsimp only
    split
    · next hk1 =>
      refine (advance_fine hs1 (by rw [hk1]; decide)).taken fun _ s2 h2 hs2 => ?_
      refine (stringLit_fine hi s2 hs2).taken fun lib s3 h3 hs3 => ?_
      refine (want_fine hs3 (by decide)).taken fun rp s4 h4 hs4 => ?_
      refine (modifiers_fine hi _ s4 hs4).parsed fun r s5 h5 hs5 => ?_
      exact hs5
    · refine (modifiers_fine hi _ s1 hs1).parsed fun r s2 h2 hs2 => ?_
      exact hs2
  · split
    · next hk =>
      refine (advance_fine hs (by rw [hk]; decide)).taken fun _ s1 h1 hs1 => ?_
      refine (modifiers_fine hi _ s1 hs1).parsed fun r s2 h2 hs2 => ?_
      exact hs2
    · exact hs
termination_by s.size

theorem param_fine (s : TokenStream) (hs : s.Sound B) : Fine (·.next.Sound B) (param s) := by
  rw [param]
  refine (want_fine hs (by decide)).taken fun n s1 h1 hs1 => ?_
  refine (want_fine hs1 (by decide)).taken fun _ s2 h2 hs2 => ?_
  refine (typeLabel_fine s2 hs2).taken fun t s3 h3 hs3 => ?_
  exact hs3

theorem params_fine (acc : List Param) (s : TokenStream) (hs : s.Sound B) :
    Fine (·.next.Sound B) (params acc s) := by
  rw [params]
  split
  · exact hs
  · refine (param_fine s hs).taken fun p s1 h1 hs1 => ?_
    refine (newlines_fine hs1).parsed fun _ s2 h2 hs2 => ?_
    dsimp only
    split
    · next hk =>
      refine (advance_fine hs2 (by rw [hk]; decide)).taken fun _ s3 h3 hs3 => ?_
      refine (newlines_fine hs3).parsed fun _ s4 h4 hs4 => ?_
      refine (params_fine _ s4 hs4).parsed fun r s5 h5 hs5 => ?_
      exact hs5
    · split
      · exact hs2
      · exact isParse_parseError ..
termination_by s.size

theorem funcDecl_fine (hi : Reads B interp) (startSpan : Span) (mods : List Modifier)
    (s : TokenStream) (hs : s.Sound B) :
    Fine (·.next.Sound B) (funcDecl interp startSpan mods s) := by
  rw [funcDecl]
  refine (want_fine hs (by decide)).taken fun _ s1 h1 hs1 => ?_
  refine (want_fine hs1 (by decide)).taken fun name s2 h2 hs2 => ?_
  refine (want_fine hs2 (by decide)).taken fun _ s3 h3 hs3 => ?_
  refine (newlines_fine hs3).parsed fun _ s4 h4 hs4 => ?_
  refine (params_fine [] s4 hs4).parsed fun ps s5 h5 hs5 => ?_
  refine (want_fine hs5 (by decide)).taken fun rp s6 h6 hs6 => ?_
  refine Fine.parsed (B := B) ?_ fun ret s7 h7 hs7 => ?_
  · -- the return type, when there is one
    split
    · next hk =>
      refine (advance_fine hs6 (by rw [hk]; decide)).taken fun _ a ha has => ?_
      refine (typeLabel_fine a has).taken fun t b hb hbs => ?_
      exact hbs
    · exact hs6
  · obtain ⟨ret, endSpan⟩ := ret
    dsimp only
    split
    · refine (block_fine hi s7 hs7).taken fun b s8 h8 hs8 => ?_
      exact hs8
    · split
      · next hk =>
        refine (advance_fine hs7 (by rw [hk]; decide)).taken fun _ s8 h8 hs8 => ?_
        refine (newlines_fine hs8).parsed fun _ s9 h9 hs9 => ?_
        refine (expr_fine hi s9 hs9).taken fun e s10 h10 hs10 => ?_
        exact hs10
      · exact hs7

mutual

theorem classDecl_fine (hi : Reads B interp) (startSpan : Span) (mods : List Modifier)
    (s : TokenStream) (hs : s.Sound B) :
    Fine (·.next.Sound B) (classDecl interp startSpan mods s) := by
  rw [classDecl]
  refine (want_fine hs (by decide)).taken fun _ s1 h1 hs1 => ?_
  refine (want_fine hs1 (by decide)).taken fun name s2 h2 hs2 => ?_
  dsimp only
  split
  · next hk =>
    refine (advance_fine hs2 (by rw [hk]; decide)).taken fun _ s3 h3 hs3 => ?_
    refine (members_fine hi [] s3 hs3).parsed fun ms s4 h4 hs4 => ?_
    refine (want_fine hs4 (by decide)).taken fun rb s5 h5 hs5 => ?_
    exact hs5
  · exact hs2
termination_by s.size * 4 + 1

theorem members_fine (hi : Reads B interp) (acc : List Decl) (s : TokenStream)
    (hs : s.Sound B) : Fine (·.next.Sound B) (members interp acc s) := by
  rw [members]
  refine (newlines_fine hs).parsed fun _ s1 h1 hs1 => ?_
  dsimp only
  split
  · exact hs1
  · refine (modifiers_fine hi [] s1 hs1).parsed fun mods s2 h2 hs2 => ?_
    refine Fine.taken (B := B) ?_ fun d s3 (h3 : s3.size < s2.size) hs3 => ?_
    · split
      · refine (funcDecl_fine hi _ mods s2 hs2).taken fun f a ha has => ?_
        exact has
      · exact classDecl_fine hi _ mods s2 hs2
      · exact isParse_parseError ..
    · dsimp only
      split
      · next hk =>
        refine (advance_fine hs3 (by rw [hk]; decide)).taken fun _ s4 h4 hs4 => ?_
        refine (members_fine hi _ s4 hs4).parsed fun r s5 h5 hs5 => ?_
        exact hs5
      · split
        · refine (members_fine hi _ s3 hs3).parsed fun r s4 h4 hs4 => ?_
          exact hs4
        · exact isParse_parseError ..
termination_by s.size * 4 + 2

end

theorem hashCall_fine (hi : Reads B interp) (s : TokenStream) (hs : s.Sound B) :
    Fine (·.next.Sound B) (hashCall interp s) := by
  rw [hashCall]
  refine (want_fine hs (by decide)).taken fun hashTok s1 h1 hs1 => ?_
  refine Fine.taken (B := B) ?_ fun root s2 h2 hs2 => ?_
  · split
    · refine (want_fine hs1 (by decide)).taken fun t a ha has => ?_
      exact has
    · exact funcLit_fine hi s1 hs1
    · exact isParse_parseError ..
  · dsimp only
    split
    · refine (suffixes_fine hi root s2 hs2).parsed fun call s3 h3 hs3 => ?_
      exact hs3
    · exact isParse_parseError ..

theorem decl_fine (hi : Reads B interp) (s : TokenStream) (hs : s.Sound B) :
    Fine (·.next.Sound B) (decl interp s) := by
  rw [decl]
  split
  · exact hashCall_fine hi s hs
  · refine (modifiers_fine hi [] s hs).parsed fun mods s1 h1 hs1 => ?_
    dsimp only
    split
    · refine (funcDecl_fine hi _ mods s1 hs1).taken fun f s2 h2 hs2 => ?_
      exact hs2
    · refine (classDecl_fine hi _ mods s1 hs1).taken fun d s2 h2 hs2 => ?_
      exact hs2
    · exact isParse_parseError ..

theorem decls_fine (hi : Reads B interp) (acc : List Decl) (s : TokenStream) (hs : s.Sound B) :
    Fine (fun _ => True) (decls interp acc s) := by
  rw [decls]
  refine (newlines_fine hs).parsed fun _ s1 h1 hs1 => ?_
  dsimp only
  split
  · trivial
  · refine (decl_fine hi s1 hs1).taken fun d s2 h2 hs2 => ?_
    dsimp only
    split
    · next hk =>
      refine (advance_fine hs2 (by rw [hk]; decide)).taken fun _ s3 h3 hs3 => ?_
      exact decls_fine hi _ s3 hs3
    · split
      · exact decls_fine hi _ s2 hs2
      · exact isParse_parseError ..
termination_by s.size

/-! ## Files and interpolations -/

/-- The first stream of sound lexer output, or the lexer's own failure when it made no token. -/
theorem start_fine {lx : Lexed} (hl : lx.Sound B) : Fine (·.Sound B) (start lx) := by
  rw [start]
  split
  · next t ts h =>
    obtain ⟨tokens, stop⟩ := lx
    dsimp only at h
    subst h
    exact hl
  · next h =>
    cases hst : lx.stop with
    | none =>
      obtain ⟨u, hu, _⟩ := hl.ends hst
      simp [h] at hu
    | some f => exact hl.stop f hst

theorem file_fine (hi : Reads B interp) (name : String) {lx : Lexed} (hl : lx.Sound B) :
    Fine (fun _ => True) (file interp name lx) := by
  rw [file]
  refine (start_fine hl).bind fun s hs => ?_
  exact (decls_fine hi [] s hs).bind fun _ _ => trivial

theorem interpolation_fine (hi : Reads B interp) {lx : Lexed} (hl : lx.Sound B) :
    Fine (fun _ => True) (interpolation interp lx) := by
  rw [interpolation]
  refine (start_fine hl).bind fun s hs => ?_
  split
  · exact isParse_parseError ..
  · refine (expr_fine hi s hs).taken fun e s1 h1 hs1 => ?_
    dsimp only
    split
    · trivial
    · exact isParse_parseError ..

end

end Grammar

/-- An interpolation's text is read without internal error at any depth: the texts of the
interpolations inside it are shorter than it, so the length check never fails. -/
theorem readInterpolation_fine (text : List Char) (pos : Position) :
    Fine (fun _ => True) (readInterpolation text pos) := by
  rw [readInterpolation]
  -- the tokens lexed from `text` are no longer than it
  refine Grammar.interpolation_fine (B := text.length) ?_ (Lexer.tokenize_sound pos text)
  intro sub p hsub
  dsimp only
  rw [if_pos hsub]
  exact readInterpolation_fine sub p
termination_by text.length

/-- Parsing a text read without fault gives a file, or a parse error of the unit `name`. -/
theorem parse_total (name s : String) :
    (∃ f, Source.parse name (Source.ofString s) = .ok f) ∨
      ∃ e, Source.parse name (Source.ofString s) = .error (.compile e) ∧
        e.kind = .parse ∧ e.file = name := by
  have h := Grammar.file_fine (fun text pos _ => readInterpolation_fine text pos) name
    (Lexer.tokenize_sound ⟨0, 0⟩ s.toList)
  unfold Source.parse Source.tokens Source.ofString
  dsimp only
  cases hf : Grammar.file readInterpolation name (Lexer.tokenize .eof ⟨0, 0⟩ s.toList) with
  | ok f => exact .inl ⟨f, rfl⟩
  | error e =>
    rw [hf] at h
    cases e with
    | compile e =>
      obtain ⟨hk, hfile⟩ := h
      refine .inr ⟨e.inUnit name, rfl, by simpa using hk, ?_⟩
      simp [CompileError.inUnit, hfile]
    | other m => exact h.elim

end Abla
