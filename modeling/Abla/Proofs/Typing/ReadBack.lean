import Mathlib
import Abla.Proofs.Syntax.Precedence
import Abla.Proofs.Syntax.Lexemes
import Abla.Proofs.Typing.Scoping
import Abla.Proofs.Typing.Equivalence

/-!
# Types read back from their text

A type is written in messages as `DataType.repr` prints it: `Int`, `Box<String, Bool>`,
`(Int, () -> Void) -> Bool`. Read back, that text is lexed, parsed as a type label, and the
label is resolved in a scope. `DataType.resolve_parse_repr`: for a type whose classes are
declared in the scope under names that are identifiers and not spelled like a primitive type
(`DataType.declaredIn`), nested to any depth, lexing the text gives the type's tokens
(`DataType.spelling`) and the end of the file, the label parsed from the first token runs up to
the end of the file, and it resolves to a type equivalent to the first, leaving the tables as
they are. The type comes back up to equivalence only: a missing return is printed, and read
back, as `Void`.

Lexing (`DataType.lexes_repr`) cuts the text into chunks, each one token after blanks, and
follows the lexer chunk by chunk (`Lexer.Lexes`). What follows a chunk matters only through its
first character: a name must not run on into an identifier character, and `<` or `>` must not
meet `=`. So the closing `>>` of nested arguments is two tokens.

Parsing and resolving (`DataType.readsBack`) follow the type, its lists of parameters and its
return together, with the tokens after the type left open (`TokenStream.along`): a label ends
before any token but `<`, a list of arguments before `>`, and a list of parameters before `)`.
Function types nest to the right, so the return type of `(A) -> (B) -> C` is read as a function
type of its own.
-/

namespace Abla

/-- The kind and text of a token: what the grammar reads of it besides its span. -/
def Token.shape (t : Token) : TokenKind × String := (t.kind, t.value)

@[simp] theorem Token.shape_eq_iff {t : Token} {k : TokenKind} {v : String} :
    t.shape = (k, v) ↔ t.kind = k ∧ t.value = v := by
  simp [Token.shape]

namespace Lexer

/-! ## Reading single tokens -/

/-- A text the lexer reads as one identifier: a letter or an underscore, then identifier
characters, and no keyword. -/
def isName (n : String) : Bool :=
  match n.toList with
  | [] => false
  | c :: cs => isIdentStart c && cs.all isIdentChar && (TokenKind.keyword? n).isNone

theorem isName_cons {n : String} (h : isName n = true) :
    ∃ c cs, n.toList = c :: cs ∧ isIdentStart c = true := by
  unfold isName at h
  split at h
  · cases h
  · next c cs hcs =>
    simp only [Bool.and_eq_true] at h
    exact ⟨c, cs, hcs, h.1.1⟩

theorem lookPast_eof (cs : List Char) : lookPast .eof cs = .ok () := by
  cases cs <;> rfl

theorem isIdentStart_ascii {c : Char} (h : c.toNat < 128) :
    isIdentStart c = (c = '_' || c.isAlpha) := by
  simp [isIdentStart, isLetter, h]

theorem isIdentStart_of_isDigit {c : Char} (h : c.isDigit = true) : isIdentStart c = false := by
  have hv : 48 ≤ c.toNat ∧ c.toNat ≤ 57 := by
    simp only [Char.isDigit, Bool.and_eq_true, decide_eq_true_eq, UInt32.le_iff_toNat_le] at h
    exact h
  rw [isIdentStart_ascii (by omega)]
  have hu : c ≠ '_' := by
    rintro rfl
    simp at hv
  -- a digit lies below the capitals
  simp only [Char.isAlpha, Char.isUpper, Char.isLower, Bool.or_eq_false_iff,
    Bool.and_eq_false_iff, decide_eq_false_iff_not, hu, decide_false, Bool.false_or,
    UInt32.le_iff_toNat_le]
  have e : c.toNat = c.val.toNat := rfl
  have hA : 'A'.val.toNat = 65 := rfl
  have ha : 'a'.val.toNat = 97 := rfl
  omega

/-- What starts an identifier is no blank, newline, slash, quote or digit, so the lexer reaches
its identifier branch. -/
theorem isIdentStart_other {c : Char} (h : isIdentStart c = true) :
    isBlank c = false ∧ c ≠ '\n' ∧ c ≠ '/' ∧ c ≠ '"' ∧ c.isDigit = false := by
  refine ⟨?_, ?_, ?_, ?_, ?_⟩
  · cases hb : isBlank c
    · rfl
    · simp only [isBlank, Bool.or_eq_true, decide_eq_true_eq] at hb
      rcases hb with (((rfl | rfl) | rfl) | rfl) | rfl <;> simp_all [isIdentStart, isLetter]
  · rintro rfl
    simp [isIdentStart, isLetter] at h
  · rintro rfl
    simp [isIdentStart, isLetter] at h
  · rintro rfl
    simp [isIdentStart, isLetter] at h
  · cases hd : c.isDigit
    · rfl
    · rw [isIdentStart_of_isDigit hd] at h
      cases h

/-- The longest prefix of characters in a class, when the text after it starts outside. -/
theorem takeWhile_stop {p : Char → Bool} {cs rest : List Char} (hcs : ∀ c ∈ cs, p c = true)
    (hr : ∀ c ∈ rest.head?, p c = false) :
    (cs ++ rest).takeWhile p = cs ∧ (cs ++ rest).dropWhile p = rest := by
  rw [List.takeWhile_append_of_pos hcs, List.dropWhile_append_of_pos hcs]
  cases rest with
  | nil => simp
  | cons d ds => simp [hr d rfl]

/-- A name followed by a character that cannot continue it is read as one identifier. -/
theorem next_name {n : String} (hn : isName n = true) (pos : Position) {rest : List Char}
    (hr : ∀ c ∈ rest.head?, isIdentChar c = false) :
    next .eof pos (n.toList ++ rest) =
      .ok (⟨.ident, n, Span.between pos (pos.advanceAll n.toList)⟩, pos.advanceAll n.toList,
        rest) := by
  unfold isName at hn
  split at hn
  · cases hn
  · next c cs hcs =>
    simp only [Bool.and_eq_true, List.all_eq_true, Option.isNone_iff_eq_none] at hn
    obtain ⟨⟨hc, hall⟩, hk⟩ := hn
    obtain ⟨hb, hnl, hsl, hq, hd⟩ := isIdentStart_other hc
    obtain ⟨htake, hdrop⟩ := takeWhile_stop hall hr
    rw [hcs, List.cons_append, next]
    simp only [hb, hnl, hsl, hq, hd, hc, if_false, if_true, Bool.false_eq_true, htake, hdrop,
      lookPast_eof, ← hcs, String.ofList_toList, hk, Option.getD_none]
    rfl

/-- Two characters spell an operator only as `==`, `!=`, `<=`, `>=` or `->`. -/
theorem symbol?_pair {c d : Char} {k : TokenKind} (h : TokenKind.symbol? [c, d] = some k) :
    (c = '=' ∨ c = '!' ∨ c = '<' ∨ c = '>') ∧ d = '=' ∨ c = '-' ∧ d = '>' := by
  unfold TokenKind.symbol? at h
  split at h <;> simp_all

/-- A bracket, comma or angle of a type's text, not followed by `=`, is read as a token of its
own. -/
theorem next_punct {c : Char} {k : TokenKind} (hc : c ∈ ['(', ')', ',', '<', '>'])
    (hk : TokenKind.symbol? [c] = some k) (pos : Position) {rest : List Char}
    (hr : ∀ d ∈ rest.head?, d ≠ '=') :
    next .eof pos (c :: rest) =
      .ok (⟨k, String.ofList [c], Span.between pos (pos.advance c)⟩, pos.advance c, rest) := by
  have hchar : isBlank c = false ∧ c ≠ '\n' ∧ c ≠ '/' ∧ c ≠ '"' ∧ c.isDigit = false ∧
      isIdentStart c = false ∧ c ≠ '-' := by
    simp only [List.mem_cons, List.not_mem_nil, or_false] at hc
    rcases hc with rfl | rfl | rfl | rfl | rfl <;> decide
  obtain ⟨hb, hnl, hsl, hq, hd, hi, hminus⟩ := hchar
  rw [next]
  simp only [hb, hnl, hsl, hq, hd, hi, hk, if_false, Bool.false_eq_true, Option.isNone_some,
    false_and, lookPast_eof]
  cases rest with
  | nil =>
    simp only [hk]
    rfl
  | cons d r =>
    -- no operator of two characters starts with one of these and goes on with `d`
    have hpair : TokenKind.symbol? [c, d] = none := by
      cases hs : TokenKind.symbol? [c, d] with
      | none => rfl
      | some k' =>
        rcases symbol?_pair hs with ⟨_, rfl⟩ | ⟨rfl, _⟩
        · exact absurd rfl (hr '=' rfl)
        · exact absurd rfl hminus
    simp only [hpair, Option.isSome_none, Bool.false_eq_true, if_false, hk]
    rfl

/-- Blanks before a token are skipped. -/
theorem next_blanks {gap : List Char} (hg : ∀ c ∈ gap, isBlank c = true) (en : Ending)
    (pos : Position) (cs : List Char) :
    next en pos (gap ++ cs) = next en (pos.advanceAll gap) cs := by
  induction gap generalizing pos with
  | nil => rfl
  | cons c gap ih =>
    rw [List.cons_append, next, if_pos (hg c List.mem_cons_self),
      ih (fun d hd => hg d (List.mem_cons_of_mem c hd))]
    rfl

theorem blanks_space : ∀ c ∈ [' '], isBlank c = true := by
  intro c hc
  rw [List.mem_singleton] at hc
  subst hc
  rfl

/-- The arrow is read as one token, whatever follows it. -/
theorem next_arrow (pos : Position) (rest : List Char) :
    next .eof pos ('-' :: '>' :: rest) =
      .ok (⟨.arrow, "->", Span.between pos ((pos.advance '-').advance '>')⟩,
        (pos.advance '-').advance '>', rest) := by
  have hchar : isBlank '-' = false ∧ '-'.isDigit = false ∧ isIdentStart '-' = false := by decide
  rw [next]
  simp only [hchar, lookPast_eof]
  rfl

theorem tokenize_nil (pos : Position) :
    tokenize .eof pos [] = ⟨[⟨.eof, "", Span.between pos pos⟩], none⟩ := by
  rw [tokenize, next]
  rfl

/-! ## Reading a text chunk by chunk -/

/-- Characters that may follow a type in a text: a comma, a closing angle or a closing
parenthesis. -/
def followsType (c : Char) : Prop := c = ',' ∨ c = '>' ∨ c = ')'

theorem followsType_ne {c : Char} (h : followsType c) : c ≠ '=' := by
  rcases h with rfl | rfl | rfl <;> decide

theorem followsType_not_identChar {c : Char} (h : followsType c) : isIdentChar c = false := by
  rcases h with rfl | rfl | rfl <;> decide

/-- Text `cs`, followed by text whose first character `ok` admits, lexes to tokens of the
kinds and texts `ks`, after which lexing goes on with what follows. -/
def Lexes (ok : Char → Prop) (cs : List Char) (ks : List (TokenKind × String)) : Prop :=
  ∀ pos rest, (∀ c ∈ rest.head?, ok c) → ∃ toks pos', toks.map Token.shape = ks ∧
    tokenize .eof pos (cs ++ rest) =
      ⟨toks ++ (tokenize .eof pos' rest).tokens, (tokenize .eof pos' rest).stop⟩

namespace Lexes

variable {ok ok' : Char → Prop} {cs : List Char} {ks : List (TokenKind × String)}

/-- One token that `next` reads from `cs`, leaving what follows. -/
theorem token {k : TokenKind} {v : String} (hne : cs ≠ []) (hk : k ≠ .eof)
    (h : ∀ pos rest, (∀ c ∈ rest.head?, ok c) →
      ∃ sp pos', next .eof pos (cs ++ rest) = .ok (⟨k, v, sp⟩, pos', rest)) :
    Lexes ok cs [(k, v)] := by
  intro pos rest hr
  obtain ⟨sp, pos', hn⟩ := h pos rest hr
  have hlt : rest.length < (cs ++ rest).length := by
    have := List.length_pos_iff.2 hne
    simp only [List.length_append]
    omega
  refine ⟨[⟨k, v, sp⟩], pos', rfl, ?_⟩
  rw [tokenize, hn]
  simp only [if_neg hk, if_pos hlt, List.singleton_append]

theorem mono (h : Lexes ok cs ks) (hok : ∀ c, ok' c → ok c) : Lexes ok' cs ks :=
  fun pos rest hr => h pos rest fun c hc => hok c (hr c hc)

/-- A text that lexes, followed by a nonempty one whose first character it admits. -/
theorem append {ys : List Char} {ls : List (TokenKind × String)} (h₁ : Lexes ok cs ks)
    (h₂ : Lexes ok' ys ls) (hne : ys ≠ []) (hy : ∀ c ∈ ys.head?, ok c) :
    Lexes ok' (cs ++ ys) (ks ++ ls) := by
  intro pos rest hr
  obtain ⟨toks₁, pos₁, hm₁, e₁⟩ :=
    h₁ pos (ys ++ rest) (by rwa [List.head?_append_of_ne_nil _ hne])
  obtain ⟨toks₂, pos₂, hm₂, e₂⟩ := h₂ pos₁ rest hr
  refine ⟨toks₁ ++ toks₂, pos₂, by rw [List.map_append, hm₁, hm₂], ?_⟩
  rw [List.append_assoc, e₁, e₂, List.append_assoc]

/-- A name after blanks is one identifier. -/
theorem name {gap : List Char} (hg : ∀ c ∈ gap, isBlank c = true) {n : String}
    (hn : isName n = true) :
    Lexes (fun c => isIdentChar c = false) (gap ++ n.toList) [(.ident, n)] := by
  have hne : n.toList ≠ [] := by
    intro h
    simp [isName, h] at hn
  refine token (by simp [hne]) (by decide) fun pos rest hr => ?_
  rw [List.append_assoc, next_blanks hg, next_name hn _ hr]
  exact ⟨_, _, rfl⟩

/-- A bracket, comma or angle after blanks is one token. -/
theorem punct {gap : List Char} (hg : ∀ c ∈ gap, isBlank c = true) {c : Char} {k : TokenKind}
    (hc : c ∈ ['(', ')', ',', '<', '>']) (hk : TokenKind.symbol? [c] = some k) :
    Lexes (fun d => d ≠ '=') (gap ++ [c]) [(k, String.ofList [c])] := by
  refine token (by simp) (symbol_ne_eof hk) fun pos rest hr => ?_
  rw [List.append_assoc, next_blanks hg, List.singleton_append, next_punct hc hk _ hr]
  exact ⟨_, _, rfl⟩

/-- The arrow after blanks is one token. -/
theorem arrow {gap : List Char} (hg : ∀ c ∈ gap, isBlank c = true) :
    Lexes (fun _ => True) (gap ++ ['-', '>']) [(.arrow, "->")] := by
  refine token (by simp) (by decide) fun pos rest _ => ?_
  rw [List.append_assoc, next_blanks hg]
  exact ⟨_, _, next_arrow _ rest⟩

end Lexes

end Lexer

namespace DataType

/-! ## The spelling of a type -/

mutual

/-- Whether a type is written the way it is read back in scope `scope`: every class it names
is spelled as an identifier, not like a primitive type, and resolves there to a type. -/
def declaredIn (sc : Scopes) (scope : ScopeId) : DataType → Bool
  | .prim _ => true
  | .func ps r => declaredInList sc scope ps && declaredInRet sc scope r
  | .user n ps => Lexer.isName n && (Prim.byName? n).isNone &&
      (sc.lookup scope n).any (fun sym => sym.kind == .type) && declaredInList sc scope ps

/-- Whether every type of a list is written the way it is read back. -/
def declaredInList (sc : Scopes) (scope : ScopeId) : List DataType → Bool
  | [] => true
  | t :: ts => declaredIn sc scope t && declaredInList sc scope ts

/-- Whether a return type is written the way it is read back; a missing one is `Void`. -/
def declaredInRet (sc : Scopes) (scope : ScopeId) : Option DataType → Bool
  | none => true
  | some t => declaredIn sc scope t

end

mutual

/-- The tokens a type is spelled with, by kind and text. -/
def spelling : DataType → List (TokenKind × String)
  | .prim p => [(.ident, p.name)]
  | .func ps r =>
    (.lparen, "(") :: spellingList ps ++ (.rparen, ")") :: (.arrow, "->") :: spellingRet r
  | .user n [] => [(.ident, n)]
  | .user n (p :: ps) => (.ident, n) :: (.lt, "<") :: spellingList (p :: ps) ++ [(.gt, ">")]

/-- The tokens of a list of types, separated by commas. -/
def spellingList : List DataType → List (TokenKind × String)
  | [] => []
  | [t] => t.spelling
  | t :: u :: us => t.spelling ++ (.comma, ",") :: spellingList (u :: us)

/-- The tokens of a return type; a missing one is spelled `Void`. -/
def spellingRet : Option DataType → List (TokenKind × String)
  | none => [(.ident, "Void")]
  | some t => t.spelling

end

/-- A spelling starts with a name or an opening parenthesis. -/
theorem spelling_head (d : DataType) :
    ∃ k v rest, d.spelling = (k, v) :: rest ∧ (k = .ident ∨ k = .lparen) := by
  match d with
  | .prim _ => exact ⟨_, _, _, rfl, .inl rfl⟩
  | .func _ _ => exact ⟨_, _, _, rfl, .inr rfl⟩
  | .user _ [] => exact ⟨_, _, _, rfl, .inl rfl⟩
  | .user _ (_ :: _) => exact ⟨_, _, _, rfl, .inl rfl⟩

variable {sc : Scopes} {scope : ScopeId}

theorem isName_prim (p : Prim) : Lexer.isName p.name = true := by
  cases p <;> decide

/-- The text of a type starts with a parenthesis or with a name, never with `=`. -/
theorem repr_head : ∀ {d : DataType}, d.declaredIn sc scope = true →
    ∃ c cs, d.repr.toList = c :: cs ∧ c ≠ '='
  | .prim p, _ => by cases p <;> exact ⟨_, _, rfl, by decide⟩
  | .func ps r, _ => ⟨'(', _, by simp [repr]; rfl, by decide⟩
  | .user n ps, h => by
    simp only [declaredIn, Bool.and_eq_true] at h
    obtain ⟨c, cs, hcs, hc⟩ := Lexer.isName_cons h.1.1.1
    have hne : c ≠ '=' := by
      rintro rfl
      simp [Lexer.isIdentStart, isLetter] at hc
    cases ps with
    | nil => exact ⟨c, cs, by simp [repr, hcs], hne⟩
    | cons p ps => exact ⟨c, _, by simp [repr, hcs]; rfl, hne⟩

/-- The text of a nonempty list of types starts as the text of its first type. -/
theorem reprList_head {p : DataType} {ps : List DataType}
    (h : declaredInList sc scope (p :: ps) = true) :
    ∃ c cs, (reprList (p :: ps)).toList = c :: cs ∧ c ≠ '=' := by
  rw [declaredInList, Bool.and_eq_true] at h
  obtain ⟨c, cs, hcs, hc⟩ := repr_head h.1
  cases ps with
  | nil => exact ⟨c, cs, by simp [reprList, hcs], hc⟩
  | cons u us => exact ⟨c, _, by simp [reprList, String.toList_append, hcs]; rfl, hc⟩

open Lexer in
mutual

/-- The text of a type, after blanks and followed by a comma, a closing angle or parenthesis
or nothing, lexes to its spelling. -/
theorem lexes_repr : ∀ {d : DataType}, d.declaredIn sc scope = true →
    ∀ (gap : List Char), (∀ c ∈ gap, isBlank c = true) →
      Lexes followsType (gap ++ d.repr.toList) d.spelling
  | .prim p, _, _, hg => (Lexes.name hg (isName_prim p)).mono fun _ => followsType_not_identChar
  | .user n [], h, _, hg => by
    simp only [declaredIn, Bool.and_eq_true] at h
    exact (Lexes.name hg h.1.1.1).mono fun _ => followsType_not_identChar
  | .user n (p :: ps), h, gap, hg => by
    simp only [declaredIn, Bool.and_eq_true] at h
    have hl := lexes_reprList h.2 (List.cons_ne_nil p ps) [] (by simp)
    obtain ⟨c, cs, hcs, hc⟩ := reprList_head h.2
    have e : gap ++ (repr (.user n (p :: ps))).toList =
        (gap ++ n.toList) ++ ([] ++ ['<'] ++ ((reprList (p :: ps)).toList ++ ([] ++ ['>']))) := by
      simp [repr, String.toList_append]
    rw [e, spelling]
    -- the name, `<`, the arguments and `>`, each admitting the first character of the next
    refine ((Lexes.name hg h.1.1.1).append ((Lexes.punct (by simp) (by simp) rfl).append
      (hl.append (Lexes.punct (by simp) (by simp) rfl) (by simp) (by simp [followsType]))
      (by simp) ?_) (by simp) (by simp +decide)).mono fun _ => followsType_ne
    simp [hcs, hc]
  | .func ps r, h, gap, hg => by
    simp only [declaredIn, Bool.and_eq_true] at h
    -- after the parameters come `)`, the arrow and the return type
    have hret : Lexes followsType
        ([] ++ [')'] ++ ([' '] ++ ['-', '>'] ++ ([' '] ++ (reprRet r).toList)))
        ((.rparen, ")") :: (.arrow, "->") :: spellingRet r) :=
      (Lexes.punct (by simp) (by simp) rfl).append
        ((Lexes.arrow blanks_space).append (lexes_reprRet h.2 [' '] blanks_space) (by simp) (by simp))
        (by simp) (by simp)
    cases ps with
    | nil =>
      have e : gap ++ (repr (.func [] r)).toList = (gap ++ ['(']) ++
          ([] ++ [')'] ++ ([' '] ++ ['-', '>'] ++ ([' '] ++ (reprRet r).toList))) := by
        simp [repr, reprList, String.toList_append]
      rw [e, spelling, spellingList]
      exact (Lexes.punct hg (by simp) rfl).append hret (by simp) (by simp)
    | cons p ps =>
      have hl := lexes_reprList h.1 (List.cons_ne_nil p ps) [] (by simp)
      obtain ⟨c, cs, hcs, hc⟩ := reprList_head h.1
      have e : gap ++ (repr (.func (p :: ps) r)).toList =
          (gap ++ ['(']) ++ (([] ++ (reprList (p :: ps)).toList) ++
            ([] ++ [')'] ++ ([' '] ++ ['-', '>'] ++ ([' '] ++ (reprRet r).toList)))) := by
        simp [repr, String.toList_append]
      rw [e, spelling]
      refine (Lexes.punct hg (by simp) rfl).append
        (hl.append hret (by simp) (by simp [followsType])) (by simp) ?_
      simp [hcs, hc]

theorem lexes_reprList : ∀ {ps : List DataType}, declaredInList sc scope ps = true → ps ≠ [] →
    ∀ (gap : List Char), (∀ c ∈ gap, isBlank c = true) →
      Lexes followsType (gap ++ (reprList ps).toList) (spellingList ps)
  | [], _, hne, _, _ => absurd rfl hne
  | [t], h, _, _, hg => by
    simp only [declaredInList, Bool.and_eq_true] at h
    exact lexes_repr h.1 _ hg
  | t :: u :: us, h, _, gap, hg => by
    rw [declaredInList, Bool.and_eq_true] at h
    have hrest := lexes_reprList h.2 (List.cons_ne_nil u us) [' '] blanks_space
    have e : gap ++ (reprList (t :: u :: us)).toList =
        (gap ++ t.repr.toList) ++ ([] ++ [','] ++ ([' '] ++ (reprList (u :: us)).toList)) := by
      simp [reprList, String.toList_append]
    rw [e, spellingList]
    exact (lexes_repr h.1 gap hg).append ((Lexes.punct (by simp) (by simp) rfl).append hrest (by simp)
      (by simp)) (by simp) (by simp [followsType])

theorem lexes_reprRet : ∀ {r : Option DataType}, declaredInRet sc scope r = true →
    ∀ (gap : List Char), (∀ c ∈ gap, isBlank c = true) →
      Lexes followsType (gap ++ (reprRet r).toList) (spellingRet r)
  | none, _, _, hg => (Lexes.name hg (isName_prim .void)).mono fun _ => followsType_not_identChar
  | some _, h, gap, hg => lexes_repr h gap hg

end

/-- The whole text of a type lexes without error to its spelling and the end of the file. -/
theorem tokens_repr {d : DataType} (hd : d.declaredIn sc scope = true) :
    ∃ toks pos, toks.map Token.shape = d.spelling ∧
      (Source.ofString d.repr).tokens = ⟨toks ++ [⟨.eof, "", Span.between pos pos⟩], none⟩ := by
  obtain ⟨toks, pos, hm, e⟩ := lexes_repr hd [] (by simp) ⟨0, 0⟩ [] (by simp)
  rw [List.nil_append, List.append_nil, Lexer.tokenize_nil] at e
  exact ⟨toks, pos, hm, e⟩

end DataType

/-! ## Parsing and resolving type labels -/

namespace Grammar

section Streams

variable {s : TokenStream}

/-- Taking a token of the kind that comes. -/
theorem want_along {k : TokenKind} (t : Token) (ts : List Token) (hk : t.kind = k) :
    ∃ h, want k (s.along (t :: ts)) = .ok ⟨t, s.along ts, h⟩ := by
  obtain ⟨h, e⟩ := advance_along (s := s) t ts
  refine ⟨h, ?_⟩
  rw [want, if_pos (by simpa using hk)]
  simp only [e, bind, Except.bind]
  rfl

/-- A name not followed by `<` is a type label of its own. -/
theorem typeLabel_name (tok : Token) (hk : tok.kind = .ident) (hs : s.kind ≠ .lt) :
    (typeLabel (s.along [tok])).map Taken.out = .ok (.named tok.value [] tok.span, s) := by
  obtain ⟨h, e⟩ := want_along (s := s) tok [] hk
  rw [typeLabel, TokenStream.along_cons_kind, hk]
  simp only [e, bind, Except.bind, TokenStream.along_nil, if_neg hs]
  rfl

/-- A name with type arguments: the name, `<`, the arguments read by `typeArgs`, and `>`. -/
theorem typeLabel_args {tok lt gt : Token} {args : List Token} {ls : List TypeLabel}
    (hk : tok.kind = .ident) (hlt : lt.kind = .lt) (hgt : gt.kind = .gt)
    (hargs : (typeArgs [] ((s.along [gt]).along args)).map Taken.out = .ok (ls, s.along [gt])) :
    (typeLabel (s.along (tok :: lt :: (args ++ [gt])))).map Taken.out =
      .ok (.named tok.value ls (Span.hull tok.span gt.span), s) := by
  obtain ⟨h₁, e₁⟩ := want_along (s := s) tok (lt :: (args ++ [gt])) hk
  obtain ⟨h₂, e₂⟩ := advance_along (s := s) lt (args ++ [gt])
  rw [← TokenStream.along_append] at hargs
  obtain ⟨h₃, e₃⟩ := Taken.eq_ok hargs
  obtain ⟨h₄, e₄⟩ := want_along (s := s) gt [] hgt
  rw [typeLabel, TokenStream.along_cons_kind, hk]
  simp only [e₁, bind, Except.bind, TokenStream.along_cons_kind, hlt, if_pos, e₂, e₃, e₄,
    TokenStream.along_nil]
  rfl

/-- A function type: `(`, the parameter types read by `funcTypeParams` up to `)`, `)`, the
arrow and the return type. -/
theorem typeLabel_func {lp rp arr : Token} {params rets : List Token} {ls : List TypeLabel}
    {l : TypeLabel} (hlp : lp.kind = .lparen) (harr : arr.kind = .arrow)
    (hps : (funcTypeParams [] (((s.along rets).along [rp, arr]).along params)).map Parsed.out =
      .ok (ls, (s.along rets).along [rp, arr]))
    (hr : (typeLabel (s.along rets)).map Taken.out = .ok (l, s)) :
    (typeLabel (s.along (lp :: (params ++ rp :: arr :: rets)))).map Taken.out =
      .ok (.func ls l (Span.hull lp.span l.span), s) := by
  obtain ⟨h₁, e₁⟩ := advance_along (s := s) lp (params ++ rp :: arr :: rets)
  have hsplit : s.along (params ++ rp :: arr :: rets) =
      ((s.along rets).along [rp, arr]).along params := by
    rw [← TokenStream.along_append, ← TokenStream.along_append]
    simp
  obtain ⟨h₂, e₂⟩ := Parsed.eq_ok hps
  obtain ⟨h₃, e₃⟩ := advance_along (s := s.along rets) rp [arr]
  obtain ⟨h₄, e₄⟩ := want_along (s := s.along rets) arr [] harr
  obtain ⟨h₅, e₅⟩ := Taken.eq_ok hr
  rw [typeLabel, TokenStream.along_cons_kind, hlp]
  simp only [e₁, bind, Except.bind, hsplit, e₂, e₃, e₄, TokenStream.along_nil, e₅]
  rfl

/-- The last type argument, before a token that is no comma. -/
theorem typeArgs_last {toks : List Token} {l : TypeLabel} (acc : List TypeLabel)
    (hl : (typeLabel (s.along toks)).map Taken.out = .ok (l, s)) (hs : s.kind ≠ .comma) :
    (typeArgs acc (s.along toks)).map Taken.out = .ok (acc ++ [l], s) := by
  obtain ⟨h, e⟩ := Taken.eq_ok hl
  rw [typeArgs]
  simp only [e, bind, Except.bind, if_neg hs]
  rfl

/-- A type argument, a comma, and the arguments after it. -/
theorem typeArgs_cons {toks rest : List Token} {comma : Token} {l : TypeLabel}
    {r : List TypeLabel} {s' : TokenStream} (acc : List TypeLabel) (hc : comma.kind = .comma)
    (hl : (typeLabel ((s.along (comma :: rest)).along toks)).map Taken.out =
      .ok (l, s.along (comma :: rest)))
    (hrest : (typeArgs (acc ++ [l]) (s.along rest)).map Taken.out = .ok (r, s')) :
    (typeArgs acc ((s.along (comma :: rest)).along toks)).map Taken.out = .ok (r, s') := by
  obtain ⟨h₁, e₁⟩ := Taken.eq_ok hl
  obtain ⟨h₂, e₂⟩ := advance_along (s := s) comma rest
  obtain ⟨h₃, e₃⟩ := Taken.eq_ok hrest
  rw [typeArgs]
  simp only [e₁, bind, Except.bind, TokenStream.along_cons_kind, hc, if_pos, e₂, e₃]
  rfl

/-- No parameter types: the closing parenthesis comes at once. -/
theorem funcTypeParams_nil (acc : List TypeLabel) (hs : s.kind = .rparen) :
    (funcTypeParams acc s).map Parsed.out = .ok (acc, s) := by
  rw [funcTypeParams, if_pos hs]
  rfl

/-- The last parameter type, before the closing parenthesis. -/
theorem funcTypeParams_last {toks : List Token} {l : TypeLabel} (acc : List TypeLabel)
    (hfirst : (s.along toks).kind ≠ .rparen)
    (hl : (typeLabel (s.along toks)).map Taken.out = .ok (l, s)) (hs : s.kind = .rparen) :
    (funcTypeParams acc (s.along toks)).map Parsed.out = .ok (acc ++ [l], s) := by
  obtain ⟨h, e⟩ := Taken.eq_ok hl
  rw [funcTypeParams, if_neg hfirst]
  simp only [e, bind, Except.bind, hs, reduceCtorEq, if_false, if_true]
  rfl

/-- A parameter type, a comma, and the parameter types after it. -/
theorem funcTypeParams_cons {toks rest : List Token} {comma : Token} {l : TypeLabel}
    {r : List TypeLabel} {s' : TokenStream} (acc : List TypeLabel) (hc : comma.kind = .comma)
    (hfirst : ((s.along (comma :: rest)).along toks).kind ≠ .rparen)
    (hl : (typeLabel ((s.along (comma :: rest)).along toks)).map Taken.out =
      .ok (l, s.along (comma :: rest)))
    (hrest : (funcTypeParams (acc ++ [l]) (s.along rest)).map Parsed.out = .ok (r, s')) :
    (funcTypeParams acc ((s.along (comma :: rest)).along toks)).map Parsed.out = .ok (r, s') := by
  obtain ⟨h₁, e₁⟩ := Taken.eq_ok hl
  obtain ⟨h₂, e₂⟩ := advance_along (s := s) comma rest
  obtain ⟨h₃, e₃⟩ := Parsed.eq_ok hrest
  rw [funcTypeParams, if_neg hfirst]
  simp only [e₁, bind, Except.bind, TokenStream.along_cons_kind, hc, if_pos, e₂, e₃]
  rfl

end Streams

end Grammar

namespace Gather

section Resolve

variable {scope : ScopeId} {t : Tables}

theorem resolve_prim (p : Prim) (sp : Span) :
    (resolve scope (.named p.name [] sp)).run.run t = (.ok (.prim p), t) := by
  rw [resolve, Prim.byName?_name]
  rfl

/-- A name that is no primitive type and finds a type in scope resolves to that class, with its
arguments. -/
theorem resolve_class {n : String} {ls : List TypeLabel} {ds : List DataType} {sym : Symbol}
    (sp : Span) (hn : Prim.byName? n = none) (hl : t.scopes.lookup scope n = some sym)
    (hk : sym.kind = .type) (hls : (resolveList scope ls).run.run t = (.ok ds, t)) :
    (resolve scope (.named n ls sp)).run.run t = (.ok (.user n ds), t) := by
  rw [resolve, hn]
  simp only [lookup, M.run_bind, M.run_get, M.run_pure, hl, if_pos hk, hls]

theorem resolve_func {ls : List TypeLabel} {l : TypeLabel} {ds : List DataType} {d : DataType}
    (sp : Span) (hls : (resolveList scope ls).run.run t = (.ok ds, t))
    (hl : (resolve scope l).run.run t = (.ok d, t)) :
    (resolve scope (.func ls l sp)).run.run t = (.ok (.func ds (some d)), t) := by
  rw [resolve]
  simp only [M.run_bind, hl, hls, M.run_pure]

theorem resolveList_nil : (resolveList scope []).run.run t = (.ok [], t) := by
  rw [resolveList]
  rfl

theorem resolveList_cons {l : TypeLabel} {ls : List TypeLabel} {d : DataType}
    {ds : List DataType} (hl : (resolve scope l).run.run t = (.ok d, t))
    (hls : (resolveList scope ls).run.run t = (.ok ds, t)) :
    (resolveList scope (l :: ls)).run.run t = (.ok (d :: ds), t) := by
  rw [resolveList]
  simp only [M.run_bind, hl, hls, M.run_pure]

end Resolve

end Gather

namespace DataType

/-- Equivalent types are both `Void` or both not. -/
theorem isVoid_some_of_equiv {a b : DataType} (h : a.equiv b = true) :
    isVoid (some a) = isVoid (some b) := by
  cases a <;> cases b <;> simp_all [equiv, isVoid]

theorem equivRet_some_of_equiv {a b : DataType} (h : a.equiv b = true) :
    equivRet (some a) (some b) = true := by
  rw [equivRet, isVoid_some_of_equiv h]
  cases isVoid (some b) <;> simp [h]

/-- Read from a spelling, the parser meets a name or an opening parenthesis first. -/
theorem along_kind_of_spelling {d : DataType} {toks : List Token} (s : TokenStream)
    (h : toks.map Token.shape = d.spelling) :
    (s.along toks).kind = .ident ∨ (s.along toks).kind = .lparen := by
  obtain ⟨k, v, rest, hd, hk⟩ := spelling_head d
  rw [hd, List.map_eq_cons_iff] at h
  obtain ⟨tok, toks', rfl, htok, -⟩ := h
  rw [TokenStream.along_cons_kind, (Token.shape_eq_iff.1 htok).1]
  exact hk

open Grammar Gather

variable (scope : ScopeId) (t : Tables)

/-- A type is read back from its spelling: ahead of a stream `s` at a token other than `<`,
its tokens parse to a type label that leaves the stream at `s`, and the label resolves in
`scope`, leaving the tables as they are, to a type equivalent to it. -/
def ReadsBack (d : DataType) : Prop :=
  ∀ (toks : List Token) (s : TokenStream), toks.map Token.shape = d.spelling → s.kind ≠ .lt →
    ∃ l, (typeLabel (s.along toks)).map Taken.out = .ok (l, s) ∧
      ∃ d', (resolve scope l).run.run t = (.ok d', t) ∧ d'.equiv d = true

/-- A return type is read back from its spelling, a missing one as `Void`. -/
def ReadsBackRet (r : Option DataType) : Prop :=
  ∀ (toks : List Token) (s : TokenStream), toks.map Token.shape = spellingRet r → s.kind ≠ .lt →
    ∃ l, (typeLabel (s.along toks)).map Taken.out = .ok (l, s) ∧
      ∃ d', (resolve scope l).run.run t = (.ok d', t) ∧ equivRet (some d') r = true

/-- A list of types is read back from its spelling, as type arguments before `>` and as
parameter types before `)`. -/
def ReadsBackList (ps : List DataType) : Prop :=
  ∀ (toks : List Token) (s : TokenStream), toks.map Token.shape = spellingList ps →
    (s.kind = .gt ∨ s.kind = .rparen) →
    ∃ ls, (ps ≠ [] → ∀ acc, (typeArgs acc (s.along toks)).map Taken.out = .ok (acc ++ ls, s)) ∧
      (s.kind = .rparen →
        ∀ acc, (funcTypeParams acc (s.along toks)).map Parsed.out = .ok (acc ++ ls, s)) ∧
      ∃ ds, (resolveList scope ls).run.run t = (.ok ds, t) ∧ equivList ds ps = true

mutual

/-- Every type written the way it is read back is read back, following `typeLabel`: a name,
a name with arguments, or a function type. -/
theorem readsBack : ∀ {d : DataType}, d.declaredIn t.scopes scope = true → ReadsBack scope t d
  | .prim p, _ => by
    intro toks s htoks hs
    obtain ⟨tok, rfl, htok⟩ := List.map_eq_singleton_iff.1 htoks
    obtain ⟨hk, hv⟩ := Token.shape_eq_iff.1 htok
    refine ⟨_, typeLabel_name tok hk hs, .prim p, ?_, equiv_refl _⟩
    rw [hv]
    exact resolve_prim p _
  | .user n [], h => by
    intro toks s htoks hs
    simp only [declaredIn, Bool.and_eq_true, Option.isNone_iff_eq_none] at h
    obtain ⟨⟨⟨-, hn⟩, hsym⟩, -⟩ := h
    obtain ⟨sym, hl, hk⟩ := (Option.any_eq_true _ _).1 hsym
    obtain ⟨tok, rfl, htok⟩ := List.map_eq_singleton_iff.1 htoks
    obtain ⟨hik, hv⟩ := Token.shape_eq_iff.1 htok
    refine ⟨_, typeLabel_name tok hik hs, .user n [], ?_, equiv_refl _⟩
    rw [hv]
    exact resolve_class _ hn hl (by simpa using hk) resolveList_nil
  | .user n (p :: ps), h => by
    intro toks s htoks hs
    simp only [declaredIn, Bool.and_eq_true, Option.isNone_iff_eq_none] at h
    obtain ⟨⟨⟨-, hn⟩, hsym⟩, hps⟩ := h
    obtain ⟨sym, hl, hk⟩ := (Option.any_eq_true _ _).1 hsym
    -- the tokens are the name, `<`, the arguments and `>`
    simp only [spelling, List.cons_append, List.map_eq_cons_iff, List.map_eq_append_iff,
      List.map_eq_nil_iff, Token.shape_eq_iff] at htoks
    obtain ⟨tok, _, rfl, ⟨hik, hv⟩, lt, _, rfl, ⟨hlt, -⟩, args, _, rfl, hargs, gt, _, rfl, ⟨hgt, -⟩,
      rfl⟩ := htoks
    obtain ⟨ls, hta, -, ds, hds, hequiv⟩ :=
      readsBackList hps args (s.along [gt]) hargs (.inl (by simpa using hgt))
    have hta' := hta (List.cons_ne_nil p ps) []
    rw [List.nil_append] at hta'
    refine ⟨_, typeLabel_args hik hlt hgt hta', .user n ds, ?_, by simp [equiv, hequiv]⟩
    rw [hv]
    exact resolve_class _ hn hl (by simpa using hk) hds
  | .func ps r, h => by
    intro toks s htoks hs
    simp only [declaredIn, Bool.and_eq_true] at h
    -- the tokens are `(`, the parameter types, `)`, the arrow and the return type
    simp only [spelling, List.cons_append, List.map_eq_cons_iff, List.map_eq_append_iff,
      Token.shape_eq_iff] at htoks
    obtain ⟨lp, _, rfl, ⟨hlp, -⟩, params, _, rfl, hparams, rp, _, rfl, ⟨hrp, -⟩, arr, rets, rfl,
      ⟨harr, -⟩, hrets⟩ := htoks
    obtain ⟨l, hl, d', hd', hret⟩ := readsBackRet h.2 rets s hrets hs
    obtain ⟨ls, -, hfp, ds, hds, hequiv⟩ :=
      readsBackList h.1 params ((s.along rets).along [rp, arr]) hparams (.inr (by simpa using hrp))
    have hfp' := hfp (by simpa using hrp) []
    rw [List.nil_append] at hfp'
    exact ⟨_, typeLabel_func hlp harr hfp' hl, .func ds (some d'), resolve_func _ hds hd',
      by simp [equiv, hequiv, hret]⟩

/-- Lists are read back following `typeArgs` and `funcTypeParams` at once: the types one by
one, with a comma between two of them. -/
theorem readsBackList : ∀ {ps : List DataType}, declaredInList t.scopes scope ps = true →
    ReadsBackList scope t ps
  | [], _ => by
    intro toks s htoks hs
    obtain rfl := List.map_eq_nil_iff.1 htoks
    refine ⟨[], fun h => absurd rfl h, fun hr acc => ?_, [], resolveList_nil, rfl⟩
    rw [List.append_nil]
    exact funcTypeParams_nil acc hr
  | [p], h => by
    intro toks s htoks hs
    rw [declaredInList, Bool.and_eq_true] at h
    have hlt : s.kind ≠ .lt := by rcases hs with hs | hs <;> simp [hs]
    obtain ⟨l, hl, d', hd', hequiv⟩ := readsBack h.1 toks s htoks hlt
    refine ⟨[l], fun _ acc => typeArgs_last acc hl (by rcases hs with hs | hs <;> simp [hs]),
      fun hr acc => funcTypeParams_last acc ?_ hl hr, [d'], resolveList_cons hd' resolveList_nil,
      by simp [equivList, hequiv]⟩
    rcases along_kind_of_spelling s htoks with hk | hk <;> simp [hk]
  | p :: u :: us, h => by
    intro toks s htoks hs
    rw [declaredInList, Bool.and_eq_true] at h
    -- the tokens are those of the first type, a comma, and those of the rest
    rw [spellingList, List.map_eq_append_iff] at htoks
    obtain ⟨first, _, rfl, hfirst, hrest⟩ := htoks
    obtain ⟨comma, more, rfl, hcomma, hmore⟩ := List.map_eq_cons_iff.1 hrest
    obtain ⟨hc, -⟩ := Token.shape_eq_iff.1 hcomma
    rw [TokenStream.along_append]
    obtain ⟨l, hl, d', hd', hequiv⟩ :=
      readsBack h.1 first (s.along (comma :: more)) hfirst (by simp [hc])
    obtain ⟨ls, hta, hfp, ds, hds, hequivs⟩ := readsBackList h.2 more s hmore hs
    have hstart : ((s.along (comma :: more)).along first).kind ≠ .rparen := by
      rcases along_kind_of_spelling (s.along (comma :: more)) hfirst with hk | hk <;> simp [hk]
    refine ⟨l :: ls, fun _ acc => ?_, fun hr acc => ?_, d' :: ds, resolveList_cons hd' hds,
      by simp [equivList, hequiv, hequivs]⟩
    · have e := typeArgs_cons acc hc hl (hta (List.cons_ne_nil u us) (acc ++ [l]))
      rwa [List.append_assoc, List.singleton_append] at e
    · have e := funcTypeParams_cons acc hc hstart hl (hfp hr (acc ++ [l]))
      rwa [List.append_assoc, List.singleton_append] at e

theorem readsBackRet : ∀ {r : Option DataType}, declaredInRet t.scopes scope r = true →
    ReadsBackRet scope t r
  | none, _ => by
    intro toks s htoks hs
    obtain ⟨tok, rfl, htok⟩ := List.map_eq_singleton_iff.1 htoks
    obtain ⟨hk, hv⟩ := Token.shape_eq_iff.1 htok
    refine ⟨_, typeLabel_name tok hk hs, .prim .void, ?_, rfl⟩
    rw [hv]
    exact resolve_prim .void _
  | some d, h => by
    intro toks s htoks hs
    obtain ⟨l, hl, d', hd', hequiv⟩ := readsBack h toks s htoks hs
    exact ⟨l, hl, d', hd', equivRet_some_of_equiv hequiv⟩

end

/-- Types read back through their text. For a type whose classes are declared in scope under
names that are identifiers and no primitive types, at any depth of nesting: lexing its text
gives no error and the type's spelling, then the end of the file; the type label parsed from
the first token runs up to the end of the file; and resolving that label in the scope gives
back an equivalent type and leaves the tables as they are. -/
theorem resolve_parse_repr (t : Tables) (scope : ScopeId) (d : DataType)
    (hd : d.declaredIn t.scopes scope = true) :
    (Source.ofString d.repr).tokens.stop = none ∧
      (Source.ofString d.repr).tokens.tokens.map Token.shape = d.spelling ++ [(.eof, "")] ∧
      ∃ s, ∃ r : Taken s TypeLabel, Grammar.start (Source.ofString d.repr).tokens = .ok s ∧
        typeLabel s = .ok r ∧ r.next.kind = .eof ∧ r.next.rest = [] ∧
        ∃ d', (resolve scope r.val).run.run t = (.ok d', t) ∧ d'.equiv d = true := by
  obtain ⟨toks, pos, hm, hlex⟩ := tokens_repr hd
  obtain ⟨k, v, rest, hsp, -⟩ := spelling_head d
  have hne : toks ≠ [] := by
    rintro rfl
    rw [hsp] at hm
    cases hm
  obtain ⟨first, more, rfl⟩ := List.exists_cons_of_ne_nil hne
  -- the parser starts at the first token, with the end token after the spelling
  let fin : TokenStream := ⟨⟨.eof, "", Span.between pos pos⟩, [], none⟩
  have hstart : Grammar.start (Source.ofString d.repr).tokens = .ok (fin.along (first :: more)) := by
    rw [hlex]
    rfl
  obtain ⟨l, hl, d', hd', hequiv⟩ := readsBack scope t hd (first :: more) fin hm
    (by simp [fin, TokenStream.kind])
  obtain ⟨hlt, e⟩ := Taken.eq_ok hl
  have htoks : (Source.ofString d.repr).tokens.tokens.map Token.shape =
      d.spelling ++ [(.eof, "")] := by
    rw [hlex, List.map_append, hm]
    rfl
  exact ⟨by rw [hlex], htoks, _, ⟨l, fin, hlt⟩, hstart, e, rfl, rfl, d', hd', hequiv⟩

/-- A build with one scope, which declares the class `Box`. -/
def boxTables : Tables := { scopes := ⟨#[⟨none, [{ name := "Box", kind := .type }]⟩]⟩ }

/-- `(Box<Box<Int>>, () -> Void) -> Box<String, Bool>`: a closing `>>`, a missing return, and a
function type among the parameters. -/
def nestedBoxes : DataType :=
  .func [.user "Box" [.user "Box" [.int]], .func [] none] (some (.user "Box" [.string, .bool]))

example : nestedBoxes.repr = "(Box<Box<Int>>, () -> Void) -> Box<String, Bool>" := by decide

theorem resolve_parse_repr_nestedBoxes :
    nestedBoxes.declaredIn boxTables.scopes 0 = true ∧
      (Source.ofString nestedBoxes.repr).tokens.stop = none ∧
      (Source.ofString nestedBoxes.repr).tokens.tokens.map Token.shape =
        nestedBoxes.spelling ++ [(.eof, "")] ∧
      ∃ s, ∃ r : Taken s TypeLabel, Grammar.start (Source.ofString nestedBoxes.repr).tokens = .ok s ∧
        typeLabel s = .ok r ∧ r.next.kind = .eof ∧ r.next.rest = [] ∧
        ∃ d', (resolve 0 r.val).run.run boxTables = (.ok d', boxTables) ∧
          d'.equiv nestedBoxes = true := by
  have hl : boxTables.scopes.lookup 0 "Box" = some { name := "Box", kind := .type } := by
    rw [Scopes.lookup]
    rfl
  have h : nestedBoxes.declaredIn boxTables.scopes 0 = true := by
    simp only [nestedBoxes, declaredIn, declaredInList, declaredInRet, hl]
    decide
  exact ⟨h, resolve_parse_repr boxTables 0 nestedBoxes h⟩

end DataType

end Abla
