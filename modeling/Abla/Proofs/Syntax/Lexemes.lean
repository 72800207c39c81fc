import Abla.Proofs.Syntax.Lexing

/-!
# Tokens tile their source

Read without a failing reader, a text that lexes without error is its tokens' lexemes in order,
each after a stretch of skipped text, with the end token last (`tokenize_tiles`). The lexeme of a
token is its text, and for a string token the raw text back between its quotes. What the lexer
skips before a token is `Skipped`: blanks other than the newline, then possibly one `//` comment,
which runs up to a newline and so ends what is skipped.

Each token's span runs from the position where its lexeme starts to the position where it ends,
the positions being those reached by reading the text from its first position, line by line and
code point by code point (`Position.advanceAll`).
-/

namespace Abla

/-- A result that satisfies `p` whenever it succeeds; a failure is not looked at. -/
def IfOk {α : Type} (p : α → Prop) : Except Failure α → Prop
  | .ok a => p a
  | .error _ => True

namespace IfOk

variable {α β : Type} {q : α → Prop}

theorem bind {p : β → Prop} {x : Except Failure α} {f : α → Except Failure β} (hx : IfOk q x)
    (hf : ∀ a, q a → IfOk p (f a)) : IfOk p (x >>= f) := by
  cases x with
  | ok a => exact hf a hx
  | error e => trivial

theorem mono {p : α → Prop} {x : Except Failure α} (hx : IfOk q x) (h : ∀ a, q a → p a) :
    IfOk p x := by
  cases x with
  | ok a => exact h a hx
  | error e => trivial

theorem of_eq {x : Except Failure α} {a : α} (hx : IfOk q x) (h : x = .ok a) : q a := by
  subst h
  exact hx

@[simp] theorem error (e : Failure) : IfOk q (.error e) := trivial

end IfOk

/-- The characters a token stands for in its source: its text, and for a string token the raw
text back between its quotes. -/
def Token.lexeme (t : Token) : List Char :=
  if t.kind = .stringLit then '"' :: t.value.toList ++ ['"'] else t.value.toList

theorem Token.lexeme_of_ne {t : Token} (h : t.kind ≠ .stringLit) : t.lexeme = t.value.toList :=
  if_neg h

@[simp] theorem Token.lexeme_stringLit (v : String) (sp : Span) :
    (Token.mk .stringLit v sp).lexeme = '"' :: v.toList ++ ['"'] := if_pos rfl

theorem Position.advanceAll_append (p : Position) (xs ys : List Char) :
    p.advanceAll (xs ++ ys) = (p.advanceAll xs).advanceAll ys :=
  List.foldl_append

namespace Lexer

theorem lookPast_ifOk (cs : List Char) : IfOk (fun _ => True) (lookPast .eof cs) := by
  cases cs <;> trivial

/-- Text the lexer skips before a token: blanks other than the newline, then possibly one `//`
comment, which runs up to the next newline. -/
inductive Skipped : List Char → Prop
  | nil : Skipped []
  | blank {c : Char} {cs : List Char} : isBlank c → Skipped cs → Skipped (c :: cs)
  | comment {body : List Char} : (∀ c ∈ body, c ≠ '\n') → Skipped ('/' :: '/' :: body)

/-- Token `t`, read from position `p` after the skipped text `gap`, spans its lexeme. -/
def SpansAfter (t : Token) (p : Position) (gap : List Char) : Prop :=
  t.span = Span.between (p.advanceAll gap) (p.advanceAll (gap ++ t.lexeme))

/-- `Tiles p cs ts`: read from position `p`, the text `cs` is the lexemes of the tokens `ts` in
order, each after skipped text, and each token spans its lexeme. The end token comes last and
covers nothing. -/
inductive Tiles : Position → List Char → List Token → Prop
  | last {p : Position} {gap : List Char} {t : Token} :
      Skipped gap → t.kind = .eof → t.value = "" → SpansAfter t p gap → Tiles p gap [t]
  | cons {p : Position} {gap rest : List Char} {t : Token} {ts : List Token} :
      Skipped gap → t.kind ≠ .eof → SpansAfter t p gap →
      Tiles (p.advanceAll (gap ++ t.lexeme)) rest ts → Tiles p (gap ++ t.lexeme ++ rest) (t :: ts)

/-- What the body of a string literal gives: the raw text is what was read before it and the
characters up to the closing quote, and reading goes on after that quote. -/
def BodyEnds (acc : List Char) (pos : Position) (cs : List Char)
    (r : List Char × Position × List Char) : Prop :=
  ∃ body, cs = body ++ '"' :: r.2.2 ∧ r.1 = acc.reverse ++ body ∧
    r.2.1 = (pos.advanceAll body).advance '"'

/-- One character taken into the body of a string literal. -/
theorem BodyEnds.cons {c : Char} {acc cs : List Char} {pos : Position}
    {r : List Char × Position × List Char} (h : BodyEnds (c :: acc) (pos.advance c) cs r) :
    BodyEnds acc pos (c :: cs) r := by
  obtain ⟨body, hcs, hraw, hpos⟩ := h
  exact ⟨c :: body, by simp [hcs], by simp [hraw], hpos⟩

theorem stringBody_ends (start : Position) (depth : Nat) (acc : List Char) (pos : Position)
    (cs : List Char) : IfOk (BodyEnds acc pos cs) (stringBody .eof start depth acc pos cs) := by
  cases cs with
  | nil =>
    rw [stringBody]
    exact IfOk.bind (lookPast_ifOk _) fun _ _ => trivial
  | cons c rest =>
    rw [stringBody.eq_def]
    dsimp only
    split
    · trivial
    split
    · next hc =>
      subst hc
      split
      · exact IfOk.bind (lookPast_ifOk _) fun _ _ => trivial
      · next d rest' =>
        -- an escape: the backslash and the character after it go in together
        refine (stringBody_ends start depth (d :: '\\' :: acc) ((pos.advance '\\').advance d)
          rest').mono fun r hr => ?_
        exact BodyEnds.cons (BodyEnds.cons (c := d) hr)
    split
    · next hc =>
      obtain ⟨rfl, hr⟩ := hc
      cases rest with
      | nil => simp at hr
      | cons b rest =>
        simp only [List.head?_cons, Option.some.injEq] at hr
        subst hr
        refine (stringBody_ends start (depth + 1) ('{' :: '$' :: acc)
          ((pos.advance '$').advance '{') rest).mono fun r hr => ?_
        exact BodyEnds.cons (BodyEnds.cons (c := '{') hr)
    split
    · next hc =>
      obtain ⟨rfl, -⟩ := hc
      exact ⟨[], by simp, by simp, rfl⟩
    · exact (stringBody_ends start _ (c :: acc) (pos.advance c) rest).mono
        fun r hr => BodyEnds.cons hr
termination_by cs.length

/-- What reading one token from `cs` at `pos` gives: `cs` is skipped text, the token's lexeme
and what is left; the token spans its lexeme and reading goes on where the lexeme ends. The end
token covers nothing and comes only at the end of the text. -/
def Reads (pos : Position) (cs : List Char) (r : Token × Position × List Char) : Prop :=
  ∃ gap, Skipped gap ∧ cs = gap ++ r.1.lexeme ++ r.2.2 ∧ SpansAfter r.1 pos gap ∧
    r.2.1 = pos.advanceAll (gap ++ r.1.lexeme) ∧ (r.1.kind = .eof → r.1.value = "" ∧ r.2.2 = [])

/-- A token read with nothing skipped before it, other than the end token. -/
theorem reads_of_lexeme {pos : Position} (lex rest : List Char) {t : Token}
    (hlex : t.lexeme = lex) (hspan : t.span = Span.between pos (pos.advanceAll lex))
    (hk : t.kind ≠ .eof) : Reads pos (lex ++ rest) (t, pos.advanceAll lex, rest) :=
  ⟨[], .nil, by simp [hlex], by simp [SpansAfter, hspan, hlex], by simp [hlex],
    fun h => absurd h hk⟩

theorem keyword_ne_eof (w : String) : (TokenKind.keyword? w).getD .ident ≠ .eof := by
  unfold TokenKind.keyword?
  split <;> decide

theorem symbol_ne_eof {l : List Char} {k : TokenKind} (h : TokenKind.symbol? l = some k) :
    k ≠ .eof := by
  rintro rfl
  unfold TokenKind.symbol? at h
  split at h <;> cases h

/-- A token read after the blank `c`. -/
theorem Reads.blank {pos : Position} {c : Char} {rest : List Char}
    {r : Token × Position × List Char} (hc : isBlank c) (h : Reads (pos.advance c) rest r) :
    Reads pos (c :: rest) r := by
  obtain ⟨gap, hg, hcs, hsp, hpos, heof⟩ := h
  exact ⟨c :: gap, .blank hc hg, by simp [hcs], hsp, hpos, heof⟩

/-- A token read after a comment: the text after a comment starts with a newline or is empty,
so nothing more is skipped before the token. -/
theorem Reads.comment {pos : Position} {body after : List Char}
    {r : Token × Position × List Char} (hbody : ∀ c ∈ body, c ≠ '\n')
    (hafter : after = [] ∨ after.head? = some '\n')
    (h : Reads (pos.advanceAll ('/' :: '/' :: body)) after r) :
    Reads pos ('/' :: '/' :: body ++ after) r := by
  obtain ⟨gap, hg, hcs, hsp, hpos, heof⟩ := h
  have hgap : gap = [] := by
    cases hg with
    | nil => rfl
    | blank hc _ =>
      rcases hafter with rfl | hn
      · simp at hcs
      · simp only [hcs, List.append_assoc, List.cons_append, List.head?_cons,
          Option.some.injEq] at hn
        subst hn
        simp [isBlank] at hc
    | comment _ =>
      rcases hafter with rfl | hn
      · simp at hcs
      · simp [hcs] at hn
  subst hgap
  refine ⟨'/' :: '/' :: body, .comment hbody, by simp [hcs], ?_, ?_, heof⟩
  · simpa [SpansAfter, Position.advanceAll_append] using hsp
  · simpa [Position.advanceAll_append] using hpos

/-- An operator token read from `text`, with `rest` after it. -/
theorem operator_reads (pos : Position) (text rest : List Char) :
    IfOk (Reads pos (text ++ rest)) (do
      lookPast .eof rest
      match TokenKind.symbol? text with
      | some kind => .ok (⟨kind, String.ofList text, Span.between pos (pos.advanceAll text)⟩,
          pos.advanceAll text, rest)
      | none => .error (fail pos (pos.advanceAll text) "unknown rune")) := by
  refine IfOk.bind (lookPast_ifOk rest) fun _ _ => ?_
  split
  · next kind hk =>
    exact reads_of_lexeme text rest (by simp [Token.lexeme, symbol_ne_stringLit hk]) rfl
      (symbol_ne_eof hk)
  · trivial

theorem next_reads (pos : Position) (cs : List Char) : IfOk (Reads pos cs) (next .eof pos cs) := by
  cases cs with
  | nil =>
    rw [next]
    exact IfOk.bind (lookPast_ifOk _) fun _ _ =>
      ⟨[], .nil, by simp [Token.lexeme], by simp [SpansAfter, Token.lexeme], by simp [Token.lexeme],
        fun _ => ⟨rfl, rfl⟩⟩
  | cons c rest =>
    rw [next.eq_def]
    dsimp only
    split
    · next hc => exact (next_reads (pos.advance c) rest).mono fun r hr => hr.blank hc
    split
    · next hc =>
      subst hc
      exact reads_of_lexeme ['\n'] rest (by simp [Token.lexeme]) rfl (by simp)
    split
    · next hc =>
      subst hc
      refine IfOk.bind (lookPast_ifOk _) fun _ _ => ?_
      split
      · next hr =>
        -- a comment: what follows it is read as if the comment were skipped
        refine IfOk.bind (lookPast_ifOk _) fun _ _ => ?_
        have ih := next_reads (pos.advanceAll (('/' :: rest).takeWhile notNewline))
          (rest.dropWhile notNewline)
        obtain ⟨r, rfl⟩ : ∃ r, rest = '/' :: r := by
          cases rest with
          | nil => simp at hr
          | cons b r => simp at hr; exact ⟨r, by rw [hr]⟩
        have htake : ('/' :: '/' :: r).takeWhile notNewline =
            '/' :: '/' :: r.takeWhile notNewline := by simp [List.takeWhile_cons, notNewline]
        have hdrop : ('/' :: r).dropWhile notNewline = r.dropWhile notNewline := by
          simp [List.dropWhile_cons, notNewline]
        rw [htake, hdrop] at ih ⊢
        have hsplit : '/' :: '/' :: r =
            '/' :: '/' :: r.takeWhile notNewline ++ r.dropWhile notNewline := by
          simp
        rw [hsplit]
        refine ih.mono fun res hres => hres.comment (fun c hc => ?_) ?_
        · have := List.all_eq_true.1 (List.all_takeWhile (p := notNewline) (l := r)) c hc
          simpa [notNewline] using this
        · cases hd : r.dropWhile notNewline with
          | nil => exact .inl rfl
          | cons d ds =>
            have hne : r.dropWhile notNewline ≠ [] := by simp [hd]
            have := List.head_dropWhile_not notNewline hne
            simp only [hd, List.head_cons, notNewline, bne_eq_false_iff_eq] at this
            exact .inr (by simp [this])
      · exact reads_of_lexeme ['/'] rest (by simp [Token.lexeme]) rfl (by simp)
    split
    · next hc =>
      subst hc
      refine IfOk.bind (stringBody_ends pos 0 [] (pos.advance '"') rest) fun r hr => ?_
      obtain ⟨raw, pos', rest'⟩ := r
      obtain ⟨body, hcs, hraw, hpos⟩ := hr
      simp only [List.reverse_nil, List.nil_append] at hraw hcs hpos
      subst hraw hcs hpos
      refine ⟨[], .nil, by simp, ?_, ?_, by simp⟩
      · simp [SpansAfter, Position.advanceAll_append]
      · simp [Position.advanceAll_append]
    split
    · refine IfOk.bind (lookPast_ifOk _) fun _ _ => ?_
      split
      · trivial
      · have hsplit : c :: rest = (c :: rest.takeWhile fun d => d.isDigit || d = '_') ++
            rest.dropWhile fun d => d.isDigit || d = '_' := by simp
        rw [hsplit]
        exact reads_of_lexeme _ _ (by simp [Token.lexeme]) rfl (by simp)
    split
    · refine IfOk.bind (lookPast_ifOk _) fun _ _ => ?_
      have hsplit : c :: rest = (c :: rest.takeWhile isIdentChar) ++ rest.dropWhile isIdentChar := by
        simp
      rw [hsplit]
      exact reads_of_lexeme _ _ (by simp [Token.lexeme, keyword_ne_stringLit]) rfl
        (keyword_ne_eof _)
    split
    · trivial
    refine IfOk.bind (lookPast_ifOk _) fun _ _ => ?_
    -- an operator takes two characters when they spell one, else one
    split
    · next d r =>
      split
      · exact operator_reads pos [c, d] r
      · exact operator_reads pos [c] (d :: r)
    · exact operator_reads pos [c] []
termination_by cs.length
decreasing_by
  all_goals simp_wf
  all_goals first
    | omega
    | have := dropWhile_length_le notNewline rest
      omega

/-- The lexer's tokens tile a text that it reads to the end without error. -/
theorem tokenize_tiles (pos : Position) (cs : List Char) (h : (tokenize .eof pos cs).stop = none) :
    Tiles pos cs (tokenize .eof pos cs).tokens := by
  have hn := next_reads pos cs
  rw [tokenize] at h ⊢
  split at h
  · simp at h
  · next t pos' rest he =>
    rw [he] at hn
    obtain ⟨gap, hg, hcs, hsp, hpos, heof⟩ := hn
    dsimp only at hcs hsp hpos heof
    split
    · next hk =>
      obtain ⟨hv, hr⟩ := heof hk
      have hlex : t.lexeme = [] := by simp [Token.lexeme, hk, hv]
      rw [hcs, hlex, hr]
      simpa using Tiles.last hg hk hv hsp
    split
    · next hk hlt =>
      rw [if_neg hk, if_pos hlt] at h
      rw [hcs]
      refine .cons hg hk hsp ?_
      rw [← hpos]
      exact tokenize_tiles pos' rest h
    · next hk hlt =>
      rw [if_neg hk, if_neg hlt] at h
      simp at h
termination_by cs.length

end Lexer

end Abla
