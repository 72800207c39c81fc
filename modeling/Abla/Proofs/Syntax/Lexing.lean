import Abla.Syntax.Parse

/-!
# What the lexer hands to the parser

The parser reports a malformed text as a parse error; an internal error stands for a state the
lexer and parser should never reach. `Fine p r` says that a result `r` of either is one of the
two expected outcomes: a value satisfying `p`, or a parse error not yet stamped with its unit.

Read without a failing reader, the lexer's output is `Lexed.Sound`: it stops with a parse error
or ends with the end token, and each token's text is no longer than the source. The text of a
string token is `Paired`: read from its start, every backslash has a character after it,
because the lexer takes a backslash and the next character as one unit (`stringBody_fine`).
This is what lets the parser read an escape without looking past the end of the text.
-/

namespace Abla

/-- A parse error not yet stamped with the unit it belongs to. -/
def Failure.IsParse : Failure → Prop
  | .compile e => e.kind = .parse ∧ e.file = ""
  | .other _ => False

/-- A result that holds `p` when it succeeds and that fails only with a parse error. -/
def Fine {α : Type} (p : α → Prop) : Except Failure α → Prop
  | .ok a => p a
  | .error f => f.IsParse

theorem Fine.bind {α β : Type} {p : β → Prop} {q : α → Prop} {x : Except Failure α}
    {f : α → Except Failure β} (hx : Fine q x) (hf : ∀ a, q a → Fine p (f a)) :
    Fine p (x >>= f) := by
  cases x with
  | ok a => exact hf a hx
  | error e => exact hx

theorem Fine.mono {α : Type} {p q : α → Prop} {x : Except Failure α} (hx : Fine q x)
    (h : ∀ a, q a → p a) : Fine p x := by
  cases x with
  | ok a => exact h a hx
  | error e => exact hx

/-- Raw text read as the lexer reads a string literal: a backslash and the character after it
form one escape, and no backslash is left without one. -/
inductive Paired : List Char → Prop
  | nil : Paired []
  | escape (d : Char) {cs : List Char} : Paired cs → Paired ('\\' :: d :: cs)
  | char {c : Char} {cs : List Char} : c ≠ '\\' → Paired cs → Paired (c :: cs)

namespace Paired

theorem append {xs ys : List Char} (hx : Paired xs) (hy : Paired ys) : Paired (xs ++ ys) := by
  induction hx with
  | nil => exact hy
  | escape d _ ih => exact .escape d ih
  | char hc _ ih => exact .char hc ih

/-- A closing brace is never the first half of an escape, so the text after it is read from a
unit boundary. -/
theorem after_rbrace {l : List Char} (h : Paired l) :
    ∀ {p r : List Char}, l = p ++ '}' :: r → Paired r := by
  induction h with
  | nil => intro p r h; simp at h
  | escape d hcs ih =>
    intro p r h
    match p, h with
    | [], h => simp at h
    | [_], h =>
      simp only [List.cons_append, List.nil_append, List.cons.injEq] at h
      obtain ⟨-, -, rfl⟩ := h
      exact hcs
    | _ :: _ :: p, h =>
      simp only [List.cons_append, List.cons.injEq] at h
      exact ih h.2.2
  | char hc hcs ih =>
    intro p r h
    match p, h with
    | [], h =>
      simp only [List.nil_append, List.cons.injEq] at h
      obtain ⟨-, rfl⟩ := h
      exact hcs
    | _ :: p, h =>
      simp only [List.cons_append, List.cons.injEq] at h
      exact ih h.2

end Paired

/-- A token whose text is at most `B` characters long, paired if it is a string literal. -/
def Token.Fits (B : Nat) (t : Token) : Prop :=
  t.value.toList.length ≤ B ∧ (t.kind = .stringLit → Paired t.value.toList)

theorem Token.Fits.mono {B B' : Nat} {t : Token} (h : t.Fits B) (hB : B ≤ B') : t.Fits B' :=
  ⟨Nat.le_trans h.1 hB, h.2⟩

/-- Lexer output the parser can walk: it stops with a parse error or its last token is the end
token, and its tokens fit in `B`. -/
structure Lexed.Sound (B : Nat) (lx : Lexed) : Prop where
  stop : ∀ f, lx.stop = some f → f.IsParse
  ends : lx.stop = none → ∃ t ∈ lx.tokens.getLast?, t.kind = .eof
  fits : ∀ t ∈ lx.tokens, t.Fits B

namespace Lexer

@[simp] theorem isParse_fail (a b : Position) (m : String) : (fail a b m).IsParse := ⟨rfl, rfl⟩

theorem lookPast_fine (cs : List Char) : Fine (fun _ => True) (lookPast .eof cs) := by
  cases cs <;> trivial

/-- What the body of a string literal gives when `n` characters were in hand: paired raw text,
and fewer characters than `n` between it and what is left. -/
def Body (n : Nat) (r : List Char × Position × List Char) : Prop :=
  Paired r.1 ∧ r.1.length + r.2.2.length < n

theorem Body.weaken {n n' : Nat} {r : List Char × Position × List Char} (h : Body n' r)
    (hn : n' ≤ n) : Body n r :=
  ⟨h.1, Nat.lt_of_lt_of_le h.2 hn⟩

/-- The body of a string literal: its raw text is paired, and what it took from `cs` does not
come back, since the closing quote is dropped. `acc` holds the text read so far, reversed. -/
theorem stringBody_fine (start : Position) (depth : Nat) (acc : List Char) (pos : Position)
    (cs : List Char) (hacc : Paired acc.reverse) :
    Fine (Body (acc.length + cs.length)) (stringBody .eof start depth acc pos cs) := by
  cases cs with
  | nil =>
    rw [stringBody]
    exact (lookPast_fine []).bind fun _ _ => isParse_fail ..
  | cons c rest =>
    rw [stringBody.eq_def]
    dsimp only
    split
    · exact isParse_fail ..
    split
    · next hc =>
      subst hc
      split
      · exact (lookPast_fine []).bind fun _ _ => isParse_fail ..
      · next d rest' =>
        -- an escape: the backslash and the character after it go in together
        refine (stringBody_fine start depth (d :: '\\' :: acc) ((pos.advance '\\').advance d)
          rest' (by simpa using hacc.append (.escape d .nil))).mono fun r hr => hr.weaken ?_
        simp only [List.length_cons]
        omega
    split
    · next hc =>
      obtain ⟨rfl, hr⟩ := hc
      cases rest with
      | nil => simp at hr
      | cons b rest =>
        refine (stringBody_fine start (depth + 1) ('{' :: '$' :: acc)
          ((pos.advance '$').advance '{') rest
          (by simpa using hacc.append (.char (by decide) (.char (by decide) .nil)))).mono
          fun r hr => hr.weaken ?_
        simp only [List.length_cons]
        omega
    split
    · exact ⟨hacc, by simp⟩
    · next h1 _ _ =>
      refine (stringBody_fine start _ (c :: acc) (pos.advance c) rest
        (by simpa using hacc.append (.char h1 .nil))).mono fun r hr => hr.weaken ?_
      simp only [List.length_cons]
      omega
termination_by cs.length

/-- What reading one token from `cs` gives: the end token or a token that took text, and a
token that fits in `cs`. -/
def Step (cs : List Char) (r : Token × Position × List Char) : Prop :=
  (r.1.kind = .eof ∨ r.2.2.length < cs.length) ∧ r.1.Fits cs.length

theorem Step.weaken {cs cs' : List Char} {r : Token × Position × List Char} (h : Step cs' r)
    (hl : cs'.length ≤ cs.length) : Step cs r :=
  ⟨h.1.imp_right fun h' => Nat.lt_of_lt_of_le h' hl, h.2.mono hl⟩

theorem keyword_ne_stringLit (w : String) :
    (TokenKind.keyword? w).getD .ident ≠ .stringLit := by
  unfold TokenKind.keyword?
  split <;> decide

theorem symbol_ne_stringLit {l : List Char} {k : TokenKind} (h : TokenKind.symbol? l = some k) :
    k ≠ .stringLit := by
  rintro rfl
  unfold TokenKind.symbol? at h
  split at h <;> cases h

/-- A token other than a string literal, read from `c :: rest` with `rest'` left. -/
theorem step_of_lengths {c : Char} {rest rest' : List Char} {t : Token} {pos : Position}
    (hv : t.value.toList.length ≤ rest.length + 1) (hr : rest'.length ≤ rest.length)
    (hk : t.kind ≠ .stringLit) : Step (c :: rest) (t, pos, rest') :=
  ⟨.inr (by simp only [List.length_cons]; omega), by simpa using hv, fun h => absurd h hk⟩

/-- The end of reading an operator spelled by `text`, with `rest'` after it. -/
theorem operator_fine {c : Char} {rest text rest' : List Char} {pos pos' : Position}
    (ht : text.length ≤ rest.length + 1) (hr : rest'.length ≤ rest.length) :
    Fine (Step (c :: rest)) (do
      lookPast .eof rest'
      match TokenKind.symbol? text with
      | some kind => .ok (⟨kind, String.ofList text, Span.between pos pos'⟩, pos', rest')
      | none => .error (fail pos pos' "unknown rune")) := by
  refine (lookPast_fine rest').bind fun _ _ => ?_
  split
  · next kind hk => exact step_of_lengths (by simpa using ht) hr (symbol_ne_stringLit hk)
  · exact isParse_fail ..

theorem next_fine (pos : Position) (cs : List Char) : Fine (Step cs) (next .eof pos cs) := by
  cases cs with
  | nil =>
    rw [next]
    exact (lookPast_fine []).bind fun _ _ => ⟨.inl rfl, by simp, by simp⟩
  | cons c rest =>
    rw [next.eq_def]
    dsimp only
    split
    · exact (next_fine (pos.advance c) rest).mono fun r hr => hr.weaken (by simp)
    split
    · exact step_of_lengths (by simp) (by simp) (by simp)
    split
    · refine (lookPast_fine rest).bind fun _ _ => ?_
      split
      · -- a comment: reading goes on after it
        refine (lookPast_fine _).bind fun _ _ => ?_
        have := dropWhile_length_le notNewline rest
        exact (next_fine _ _).mono fun r hr => hr.weaken (by simp; omega)
      · exact step_of_lengths (by simp) (by simp) (by simp)
    split
    · refine (stringBody_fine pos 0 [] (pos.advance c) rest .nil).bind fun r hr => ?_
      obtain ⟨raw, pos', rest'⟩ := r
      simp only [Body, List.length_nil, Nat.zero_add] at hr
      refine ⟨.inr (by simp; omega), ?_, fun _ => by simpa using hr.1⟩
      simp only [String.toList_ofList, List.length_cons]
      omega
    split
    · refine (lookPast_fine _).bind fun _ _ => ?_
      split
      · exact isParse_fail ..
      · exact step_of_lengths (by simpa using (List.takeWhile_prefix _).length_le)
          (dropWhile_length_le _ _) (by simp)
    split
    · refine (lookPast_fine _).bind fun _ _ => ?_
      exact step_of_lengths (by simpa using (List.takeWhile_prefix _).length_le)
        (dropWhile_length_le _ _) (keyword_ne_stringLit _)
    split
    · exact isParse_fail ..
    refine (lookPast_fine rest).bind fun _ _ => ?_
    -- an operator takes two characters when they spell one, else one
    split
    · split
      · exact operator_fine (by simp) (by simp)
      · exact operator_fine (by simp) (by simp)
    · exact operator_fine (by simp) (by simp)
termination_by cs.length

/-- The lexer's output for a text read without fault: every token but the end token took text,
so it never reports a token that consumed nothing. -/
theorem tokenize_sound (pos : Position) (cs : List Char) :
    (tokenize .eof pos cs).Sound cs.length := by
  have hn := next_fine pos cs
  rw [tokenize]
  split
  · next e he =>
    rw [he] at hn
    exact ⟨fun f hf => by cases hf; exact hn, by simp, by simp⟩
  · next t pos' rest he =>
    rw [he] at hn
    split
    · next hk =>
      refine ⟨by simp, fun _ => ⟨t, rfl, hk⟩, ?_⟩
      simp only [List.mem_singleton, forall_eq]
      exact hn.2
    split
    · next hk hlt =>
      have hm := tokenize_sound pos' rest
      refine ⟨hm.stop, fun h => ?_, ?_⟩
      · obtain ⟨u, hu, hk⟩ := hm.ends h
        refine ⟨u, ?_, hk⟩
        rw [Option.mem_def] at hu ⊢
        simp [List.getLast?_cons, hu]
      · intro u hu
        rcases List.mem_cons.1 hu with rfl | hu
        · exact hn.2
        · exact (hm.fits u hu).mono (Nat.le_of_lt hlt)
    · next hk hlt => exact absurd (hn.1.resolve_left hk) hlt
termination_by cs.length

end Lexer

end Abla
