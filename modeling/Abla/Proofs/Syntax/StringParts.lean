import Mathlib
import Abla.Syntax.Parse

/-!
# The pieces of a string literal

The raw text of a string literal reads as stretches of text and interpolations `${…}`. A
stretch ends at the end of the raw text or where an interpolation opens, and stands for its
text with every escape `\c` replaced by the character `escape?` gives for `c`; a `$` that no
brace follows is a character like any other. `Decodes` states this reading as rules, one per
kind of piece.

The main statement is `pieces_eq_ok_iff`: the scan `pieces` succeeds on raw text exactly with
the pieces `Decodes` gives. From it, the pieces of every literal that reads are `TextsApart`
(no text is empty and no two texts stand side by side), and an escape that names no character
fails with a parse error spanning it (`pieces_unknown_escape`).
-/

namespace Abla

/-- The constant text of a string literal: its text pieces joined in order. -/
def Piece.joinTexts : List Piece → String
  | [] => ""
  | .text s :: ps => s ++ joinTexts ps
  | .interp _ :: ps => joinTexts ps

namespace Grammar

/-- The text a stretch of raw string text stands for: each escape `\c` becomes the character
`escape?` gives for `c`, and every other character stands for itself. It fails at an escape
that names no character and at a backslash that ends the stretch. -/
def unescape : List Char → Option (List Char)
  | [] => some []
  | c :: cs =>
    if c = '\\' then
      match cs with
      | [] => none
      | d :: cs' => (escape? d).bind fun e => (unescape cs').map (e :: ·)
    else (unescape cs).map (c :: ·)

/-- Whether raw text opens no interpolation: every `${` in it is the `$` of an escape. -/
def opensNone : List Char → Bool
  | [] => true
  | c :: cs =>
    if c = '\\' then
      match cs with
      | [] => true
      | _ :: cs' => opensNone cs'
    else if c = '$' ∧ cs.head? = some '{' then false
    else opensNone cs

/-- Where a stretch of text may end: at the end of the raw text or where an interpolation
opens. -/
def StretchEnd (rest : List Char) : Prop := rest = [] ∨ ∃ tail, rest = '$' :: '{' :: tail

section Decoding

variable (interp : InterpReader) (line col : Nat)

/-- How raw string text reads from raw index `i`: as maximal stretches outside
interpolations, each the text `unescape` gives, and interpolations, each `${`, the text
`interpText` takes up to the matching brace, and what `interp` reads from that text at its
column. -/
inductive Decodes : Nat → List Char → List Piece → Prop
  | nil (i : Nat) : Decodes i [] []
  | text {i : Nat} {s t rest : List Char} {ps : List Piece} :
      s ≠ [] → opensNone s = true → unescape s = some t → StretchEnd rest →
      Decodes (i + s.length) rest ps → Decodes i (s ++ rest) (.text (String.ofList t) :: ps)
  | interp {i : Nat} {tail : List Char} {e : Expr} {ps : List Piece} :
      interp (interpText 1 tail).1 ⟨line, col + (i + 2)⟩ = .ok e →
      Decodes (i + 2 + (interpText 1 tail).1.length + 1) (interpText 1 tail).2 ps →
      Decodes i ('$' :: '{' :: tail) (.interp e :: ps)

/-! ### The scan, one character at a time -/

theorem pieces_nil (i : Nat) (buf : List Char) (acc : List Piece) :
    pieces interp line col i [] buf acc = .ok (pieces.flush buf acc) := by
  rw [pieces.eq_def]

theorem pieces_escape {d e : Char} (h : escape? d = some e) (i : Nat) (cs buf : List Char)
    (acc : List Piece) :
    pieces interp line col i ('\\' :: d :: cs) buf acc =
      pieces interp line col (i + 2) cs (e :: buf) acc := by
  rw [pieces.eq_def]
  simp only [if_true, h]

theorem pieces_unknown {d : Char} (h : escape? d = none) (i : Nat) (cs buf : List Char)
    (acc : List Piece) :
    pieces interp line col i ('\\' :: d :: cs) buf acc =
      .error (parseError ⟨line, col + i, line, col + i + 2⟩
        ("unknown escape sequence: `\\" ++ String.singleton d ++ "`")) := by
  rw [pieces.eq_def]
  simp only [if_true, h]

theorem pieces_opens (i : Nat) (tail buf : List Char) (acc : List Piece) :
    pieces interp line col i ('$' :: '{' :: tail) buf acc =
      (interp (interpText 1 tail).1 ⟨line, col + (i + 2)⟩ >>= fun e =>
        pieces interp line col (i + 2 + (interpText 1 tail).1.length + 1) (interpText 1 tail).2 []
          (pieces.flush buf acc ++ [.interp e])) := by
  rw [pieces.eq_def]
  simp

theorem pieces_char {c : Char} {cs : List Char} (hc : c ≠ '\\')
    (hd : ¬ (c = '$' ∧ cs.head? = some '{')) (i : Nat) (buf : List Char) (acc : List Piece) :
    pieces interp line col i (c :: cs) buf acc = pieces interp line col (i + 1) cs (c :: buf) acc := by
  rw [pieces.eq_def]
  simp only [hc, if_false, hd]

end Decoding

/-! ### Stretches -/

@[simp] theorem unescape_nil : unescape [] = some [] := rfl

theorem unescape_escape {d e : Char} (h : escape? d = some e) (cs : List Char) :
    unescape ('\\' :: d :: cs) = (unescape cs).map (e :: ·) := by
  simp [unescape, h]

theorem unescape_char {c : Char} (hc : c ≠ '\\') (cs : List Char) :
    unescape (c :: cs) = (unescape cs).map (c :: ·) := by
  rw [unescape.eq_def]
  dsimp only
  rw [if_neg hc]

/-- A stretch that reads stands for some text, and a non-empty one for non-empty text. -/
theorem unescape_ne_nil {s t : List Char} (hs : s ≠ []) (ht : unescape s = some t) : t ≠ [] := by
  obtain ⟨c, cs, rfl⟩ := List.exists_cons_of_ne_nil hs
  by_cases hc : c = '\\'
  · subst hc
    cases cs with
    | nil => simp [unescape] at ht
    | cons d cs =>
      cases he : escape? d with
      | none => simp [unescape, he] at ht
      | some e =>
        rw [unescape_escape he] at ht
        obtain ⟨t', -, rfl⟩ := Option.map_eq_some_iff.1 ht
        exact List.cons_ne_nil _ _
  · rw [unescape_char hc] at ht
    obtain ⟨t', -, rfl⟩ := Option.map_eq_some_iff.1 ht
    exact List.cons_ne_nil _ _

section Scan

variable (interp : InterpReader) (line col : Nat)

/-- A stretch outside interpolations that reads is scanned into the text gathered, one
character of its text at a time, when what follows it does not start with a brace. -/
theorem pieces_stretch : ∀ (s t : List Char), opensNone s = true → unescape s = some t →
    ∀ (i : Nat) (rest buf : List Char) (acc : List Piece), rest.head? ≠ some '{' →
    pieces interp line col i (s ++ rest) buf acc =
      pieces interp line col (i + s.length) rest (t.reverse ++ buf) acc
  | [], t, _, ht, i, rest, buf, acc, _ => by
    cases ht
    simp
  | c :: cs, t, hs, ht, i, rest, buf, acc, hrest => by
    by_cases hc : c = '\\'
    · subst hc
      cases cs with
      | nil => simp [unescape] at ht
      | cons d cs =>
        cases he : escape? d with
        | none => simp [unescape, he] at ht
        | some e =>
          rw [unescape_escape he] at ht
          obtain ⟨t', ht', rfl⟩ := Option.map_eq_some_iff.1 ht
          have hs' : opensNone cs = true := by simpa [opensNone] using hs
          rw [List.cons_append, List.cons_append, pieces_escape interp line col he,
            pieces_stretch cs t' hs' ht' (i + 2) rest (e :: buf) acc hrest]
          simp only [List.length_cons, List.reverse_cons, List.append_assoc, List.singleton_append]
          congr 1
          omega
    · rw [unescape_char hc] at ht
      obtain ⟨t', ht', rfl⟩ := Option.map_eq_some_iff.1 ht
      -- a `$` in the stretch is not followed by a brace, in the stretch or after it
      have hd : ¬ (c = '$' ∧ (cs ++ rest).head? = some '{') := by
        rintro ⟨rfl, hb⟩
        cases cs with
        | nil => exact hrest (by simpa using hb)
        | cons x xs => simp_all [opensNone]
      have hs' : opensNone cs = true := by
        rw [opensNone.eq_def] at hs
        dsimp only at hs
        rw [if_neg hc] at hs
        split at hs
        · cases hs
        · exact hs
      rw [List.cons_append, pieces_char interp line col hc hd,
        pieces_stretch cs t' hs' ht' (i + 1) rest (c :: buf) acc hrest]
      simp only [List.length_cons, List.reverse_cons, List.append_assoc, List.singleton_append]
      congr 1
      omega
termination_by s => s.length

/-- Where a stretch ends, the text gathered is closed into a piece. -/
theorem pieces_stretchEnd {rest : List Char} (h : StretchEnd rest) (i : Nat) (buf : List Char)
    (acc : List Piece) :
    pieces interp line col i rest buf acc = pieces interp line col i rest [] (pieces.flush buf acc) := by
  rcases h with rfl | ⟨tail, rfl⟩
  · simp [pieces_nil, pieces.flush]
  · simp [pieces_opens, pieces.flush]

/-- Wherever the scan stands, a stretch whose reading stops at an escape that names no
character fails there with a parse error spanning the escape. -/
theorem pieces_unknown_escape {pre t : List Char} (hpre : opensNone pre = true)
    (ht : unescape pre = some t) {d : Char} (hd : escape? d = none) (post : List Char) (i : Nat)
    (buf : List Char) (acc : List Piece) :
    pieces interp line col i (pre ++ '\\' :: d :: post) buf acc =
      .error (parseError ⟨line, col + (i + pre.length), line, col + (i + pre.length) + 2⟩
        ("unknown escape sequence: `\\" ++ String.singleton d ++ "`")) := by
  rw [pieces_stretch interp line col pre t hpre ht i _ buf acc (by simp),
    pieces_unknown interp line col hd]

end Scan

theorem opensNone_escape (d : Char) (cs : List Char) :
    opensNone ('\\' :: d :: cs) = opensNone cs := by
  rw [opensNone.eq_def]
  simp

theorem opensNone_char {c : Char} {cs : List Char} (hc : c ≠ '\\')
    (hd : ¬ (c = '$' ∧ cs.head? = some '{')) : opensNone (c :: cs) = opensNone cs := by
  rw [opensNone.eq_def]
  dsimp only
  rw [if_neg hc, if_neg hd]

section Reading

variable {interp : InterpReader} {line col : Nat}

variable (interp line col) in
/-- What the rest of a raw text reads to after the text `u` was gathered: with nothing
gathered, what `Decodes` gives; otherwise one text, `u` and then the text of the stretch the
rest starts with, followed by what the rest after that stretch reads to. -/
def DecodesAfter (u : List Char) (i : Nat) (raw : List Char) (ps : List Piece) : Prop :=
  (u = [] ∧ Decodes interp line col i raw ps) ∨
  (u ≠ [] ∧ ∃ s t rest qs, raw = s ++ rest ∧ opensNone s = true ∧ unescape s = some t ∧
    StretchEnd rest ∧ Decodes interp line col (i + s.length) rest qs ∧
    ps = .text (String.ofList (u ++ t)) :: qs)

/-- A unit of raw text `p`, an escape or a plain character, that stands for the text `x`
joins the stretch after it. -/
theorem DecodesAfter.unit {u x p cs : List Char} {i : Nat} {ps : List Piece} (hp : p ≠ [])
    (hx : x ≠ []) (hopen : ∀ s rest, cs = s ++ rest → opensNone (p ++ s) = opensNone s)
    (hun : ∀ s, unescape (p ++ s) = (unescape s).map (x ++ ·))
    (h : DecodesAfter interp line col (u ++ x) (i + p.length) cs ps) :
    DecodesAfter interp line col u i (p ++ cs) ps := by
  rcases h with ⟨hux, -⟩ | ⟨-, s, t, rest, qs, rfl, hs, ht, hend, hd, rfl⟩
  · exact absurd (List.append_eq_nil_iff.1 hux).2 hx
  have hs' : opensNone (p ++ s) = true := by rw [hopen s rest rfl, hs]
  have ht' : unescape (p ++ s) = some (x ++ t) := by rw [hun, ht, Option.map_some]
  have hlen : i + p.length + s.length = i + (p ++ s).length := by
    rw [List.length_append, Nat.add_assoc]
  rw [hlen] at hd
  by_cases hu : u = []
  · subst hu
    refine .inl ⟨rfl, ?_⟩
    rw [← List.append_assoc, List.nil_append]
    exact .text (List.append_ne_nil_of_left_ne_nil hp _) hs' ht' hend hd
  · refine .inr ⟨hu, p ++ s, x ++ t, rest, qs, by simp, hs', ht', hend, hd, by simp⟩

/-- A successful scan from any point reads what `Decodes` describes, after the pieces it had
already closed and continuing the text it had gathered. -/
theorem decodes_of_pieces (i : Nat) (raw buf : List Char) (acc ps : List Piece)
    (h : pieces interp line col i raw buf acc = .ok ps) :
    ∃ ps', ps = acc ++ ps' ∧ DecodesAfter interp line col buf.reverse i raw ps' := by
  -- by strong induction on the length of the raw text, following the scan's own steps
  induction hn : raw.length using Nat.strong_induction_on generalizing i raw buf acc ps with
  | _ n ih =>
  subst hn
  cases raw with
  | nil =>
    rw [pieces_nil] at h
    cases h
    by_cases hb : buf = []
    · subst hb
      exact ⟨[], by simp [pieces.flush], .inl ⟨rfl, .nil i⟩⟩
    · refine ⟨[.text (String.ofList buf.reverse)], by simp [pieces.flush, hb],
        .inr ⟨by simpa using hb, [], [], [], [], rfl, rfl, rfl, .inl rfl, .nil _, by simp⟩⟩
  | cons c cs =>
    by_cases hc : c = '\\'
    · subst hc
      cases cs with
      | nil =>
        rw [pieces.eq_def] at h
        simp at h
      | cons d cs =>
        cases he : escape? d with
        | none => rw [pieces_unknown interp line col he] at h; cases h
        | some e =>
          rw [pieces_escape interp line col he] at h
          obtain ⟨ps', rfl, hafter⟩ := ih cs.length (by simp) (i + 2) cs (e :: buf) acc ps h rfl
          refine ⟨ps', rfl, ?_⟩
          rw [List.reverse_cons] at hafter
          exact DecodesAfter.unit (p := ['\\', d]) (x := [e]) (by simp) (by simp)
            (fun s _ _ => opensNone_escape d s) (fun s => unescape_escape he s) hafter
    · by_cases hd : c = '$' ∧ cs.head? = some '{'
      · obtain ⟨rfl, hhead⟩ := hd
        obtain ⟨tail, rfl⟩ : ∃ tail, cs = '{' :: tail := by
          cases cs with
          | nil => cases hhead
          | cons x tail =>
            cases hhead
            exact ⟨tail, rfl⟩
        rw [pieces_opens] at h
        cases hi : interp (interpText 1 tail).1 ⟨line, col + (i + 2)⟩ with
        | error f => rw [hi] at h; cases h
        | ok e =>
          rw [hi] at h
          have hlt := interpText_rest_le 1 tail
          obtain ⟨ps₂, hps, hafter⟩ :=
            ih _ (by simp only [List.length_cons]; omega) _ _ [] _ ps h rfl
          obtain ⟨-, hd₂⟩ : [] = [] ∧ Decodes interp line col _ _ ps₂ := by
            rcases hafter with h₁ | ⟨hne, -⟩
            · exact h₁
            · exact absurd rfl hne
          have hread := Decodes.interp hi hd₂
          by_cases hb : buf = []
          · subst hb
            exact ⟨.interp e :: ps₂, by simp [hps, pieces.flush], .inl ⟨rfl, hread⟩⟩
          · refine ⟨.text (String.ofList buf.reverse) :: .interp e :: ps₂,
              by simp [hps, pieces.flush, hb], .inr ⟨by simpa using hb, [], [], _, _, rfl, rfl,
              rfl, .inr ⟨tail, rfl⟩, by simpa using hread, by simp⟩⟩
      · rw [pieces_char interp line col hc hd] at h
        obtain ⟨ps', rfl, hafter⟩ := ih cs.length (by simp) (i + 1) cs (c :: buf) acc ps h rfl
        refine ⟨ps', rfl, ?_⟩
        rw [List.reverse_cons] at hafter
        -- the character is no `$` before a brace, whichever stretch the brace would be in
        refine DecodesAfter.unit (p := [c]) (x := [c]) (by simp) (by simp) (fun s rest hcs => ?_)
          (fun s => unescape_char hc s) hafter
        refine opensNone_char hc fun ⟨h₁, h₂⟩ => hd ⟨h₁, ?_⟩
        cases s with
        | nil => cases h₂
        | cons x xs => simpa [hcs] using h₂

/-- What `Decodes` describes is what the scan gives. -/
theorem pieces_of_decodes {i : Nat} {raw : List Char} {ps : List Piece}
    (h : Decodes interp line col i raw ps) (acc : List Piece) :
    pieces interp line col i raw [] acc = .ok (acc ++ ps) := by
  induction h generalizing acc with
  | nil i => simp [pieces_nil, pieces.flush]
  | @text i s t rest ps hs hopen ht hend _ ih =>
    have ht₀ := unescape_ne_nil hs ht
    have hhead : rest.head? ≠ some '{' := by
      rcases hend with rfl | ⟨tail, rfl⟩ <;> simp
    rw [pieces_stretch interp line col s t hopen ht i rest [] acc hhead, List.append_nil,
      pieces_stretchEnd interp line col hend, ih]
    simp [pieces.flush, ht₀]
  | @interp i tail e ps hi _ ih =>
    rw [pieces_opens, hi]
    show pieces interp line col _ _ [] (pieces.flush [] acc ++ [.interp e]) = _
    rw [ih]
    simp [pieces.flush]

/-- The scan of a string literal's raw text succeeds exactly with the pieces `Decodes`
describes. -/
theorem pieces_eq_ok_iff {i : Nat} {raw : List Char} {ps : List Piece} :
    pieces interp line col i raw [] [] = .ok ps ↔ Decodes interp line col i raw ps := by
  constructor
  · intro h
    obtain ⟨ps', rfl, hafter⟩ := decodes_of_pieces i raw [] [] ps h
    rcases hafter with ⟨-, hd⟩ | ⟨hne, -⟩
    · simpa using hd
    · exact absurd rfl hne
  · intro h
    simpa using pieces_of_decodes h []

end Reading

/-! ### The pieces a scan gives -/

/-- A list of pieces in which every text is non-empty and no two texts stand side by side. -/
def TextsApart (ps : List Piece) : Prop :=
  (∀ s, Piece.text s ∈ ps → s ≠ "") ∧ ps.IsChain fun a b => a.isText = true → b.isText = false

section Shape

variable {interp : InterpReader} {line col : Nat}

/-- Nothing reads to no pieces. -/
theorem Decodes.nil_inv {i : Nat} {ps : List Piece} (h : Decodes interp line col i [] ps) :
    ps = [] := by
  generalize hr : ([] : List Char) = raw at h
  cases h with
  | nil => rfl
  | text hs => exact absurd (List.append_eq_nil_iff.1 hr.symm).1 hs
  | interp => cases hr

/-- Where an interpolation opens, the pieces start with it: no stretch of text ends right
before its brace. -/
theorem Decodes.opens_inv {i : Nat} {tail : List Char} {ps : List Piece}
    (h : Decodes interp line col i ('$' :: '{' :: tail) ps) : ∃ e qs, ps = .interp e :: qs := by
  generalize hr : '$' :: '{' :: tail = raw at h
  cases h with
  | nil => cases hr
  | interp => exact ⟨_, _, rfl⟩
  | @text _ s t rest qs hs hopen _ hend _ =>
    exfalso
    obtain ⟨c, s', rfl⟩ := List.exists_cons_of_ne_nil hs
    cases s' with
    | nil =>
      -- the stretch is the `$` alone, and what follows it starts with the brace
      rcases hend with rfl | ⟨tail', rfl⟩ <;> simp_all
    | cons x s'' =>
      simp only [List.cons_append, List.cons.injEq] at hr
      obtain ⟨rfl, rfl, -⟩ := hr
      simp [opensNone] at hopen

/-- The pieces of raw text that reads are texts apart: each text is non-empty, and an
interpolation or the end follows it. -/
theorem Decodes.textsApart {i : Nat} {raw : List Char} {ps : List Piece}
    (h : Decodes interp line col i raw ps) : TextsApart ps := by
  induction h with
  | nil => exact ⟨by simp, .nil⟩
  | @text i s t rest ps hs _ ht hend hd ih =>
    have hne : String.ofList t ≠ "" := by
      simpa using unescape_ne_nil hs ht
    refine ⟨fun s' hs' => ?_, ?_⟩
    · rcases List.mem_cons.1 hs' with h' | h'
      · cases h'
        exact hne
      · exact ih.1 s' h'
    · -- the stretch ends at the end or where an interpolation opens
      rcases hend with rfl | ⟨tail, rfl⟩
      · rw [hd.nil_inv]
        exact .singleton _
      · obtain ⟨e, qs, rfl⟩ := hd.opens_inv
        exact .cons_cons (fun _ => rfl) ih.2
  | interp _ _ ih =>
    refine ⟨fun s' hs' => ?_, ?_⟩
    · rcases List.mem_cons.1 hs' with h' | h'
      · cases h'
      · exact ih.1 s' h'
    · cases ‹List Piece› with
      | nil => exact .singleton _
      | cons b qs => exact .cons_cons (fun h => by cases h) ih.2

end Shape

end Grammar

end Abla
