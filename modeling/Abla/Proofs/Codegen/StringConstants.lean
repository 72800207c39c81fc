import Mathlib
import Abla.Ir.Text
import Abla.Proofs.Syntax.StringParts
import Abla.Proofs.Codegen.Interning

/-!
# String constants

A string constant of the program, a literal of text alone or a `#` expression that computed a
text, becomes the address of a string global that holds its text: the operand of the text's
entry in the program's table (`genString_interned`, `genConst_interned`). A global is written
as a private constant array of bytes, and `global_reads_back` says which: the UTF-8 bytes of
its text and one zero, as many as the array's type counts, read back from the written form by
`readBytes`, the reading of LLVM's `c"…"` constants.

The main statement, `strings_decoded_and_interned`, puts the reading of a literal's raw text
and the interning of its constant text together.
-/

/-- The loop of `ByteArray.toList` from index `i` puts the bytes from `i` on after the ones it
gathered. -/
theorem ByteArray.toList_loop_eq (bs : ByteArray) (i : Nat) (r : List UInt8) :
    ByteArray.toList.loop bs i r = r.reverse ++ bs.data.toList.drop i := by
  fun_induction ByteArray.toList.loop bs i r with
  | case1 i r hi ih =>
    have hd : bs.data.toList.drop i = bs.data.toList.get ⟨i, by simpa using hi⟩ ::
        bs.data.toList.drop (i + 1) := List.drop_eq_getElem_cons _
    rw [ih, hd, List.reverse_cons, List.append_assoc, List.singleton_append]
    simp [ByteArray.get!, hi]
  | case2 i r hi =>
    rw [List.drop_eq_nil_of_le (by simpa using hi), List.append_nil]

/-- The bytes of a byte array are those of its array. -/
theorem ByteArray.toList_eq_data (bs : ByteArray) : bs.toList = bs.data.toList := by
  simp [ByteArray.toList, ByteArray.toList_loop_eq]

namespace Abla.Ir

/-- The bytes a string global holds: its text in UTF-8, then one zero byte. -/
def Global.bytes (g : Global) : List UInt8 := g.text.toUTF8.toList ++ [0]

/-- A string global's array type counts exactly its bytes. -/
theorem Global.length_bytes (g : Global) : g.bytes.length = g.size := by
  simp [Global.bytes, Global.size, ByteArray.toList_eq_data]

namespace Text

/-- The value of a hexadecimal digit, in either case. -/
def hexValue? (c : Char) : Option Nat :=
  if '0' ≤ c ∧ c ≤ '9' then some (c.toNat - '0'.toNat)
  else if 'A' ≤ c ∧ c ≤ 'F' then some (c.toNat - 'A'.toNat + 10)
  else if 'a' ≤ c ∧ c ≤ 'f' then some (c.toNat - 'a'.toNat + 10)
  else none

/-- The bytes the text of an LLVM `c"…"` constant stands for: `\XX` is the byte of two
hexadecimal digits and an ASCII character is the byte of its code; anything else is not
part of such a text. -/
def readBytes : List Char → Option (List UInt8)
  | [] => some []
  | c :: cs =>
    if c = '\\' then
      match cs with
      | h :: l :: cs' => do
        let hi ← hexValue? h
        let lo ← hexValue? l
        let bs ← readBytes cs'
        return (hi * 16 + lo).toUInt8 :: bs
      | _ => none
    else if c.toNat < 128 then (readBytes cs).map (c.toNat.toUInt8 :: ·)
    else none

/-- How one byte is written inside a `c"…"` constant. -/
def byteText (b : UInt8) : String :=
  if isQuotable b then String.singleton (Char.ofNat b.toNat) else escapeByte b

theorem escapeBytes_eq (s : String) :
    escapeBytes s = String.join (s.toUTF8.toList.map byteText) := rfl

theorem hexValue?_hex : ∀ n < 16, hexValue? (hex n) = some n := by
  decide

theorem charOfNat_toNat {n : Nat} (h : n < 128) : (Char.ofNat n).toNat = n := by
  have hv : n.isValidChar := Or.inl (by omega)
  simp [Char.ofNat, hv, Char.ofNatAux, Char.toNat]

/-- Reading a written byte gives it back. -/
theorem readBytes_byteText (b : UInt8) (rest : List Char) :
    readBytes ((byteText b).toList ++ rest) = (readBytes rest).map (b :: ·) := by
  unfold byteText
  split
  · -- a printable byte stands for itself
    rename_i hq
    simp only [isQuotable, ge_iff_le, ne_eq, Bool.and_eq_true, decide_eq_true_eq] at hq
    have hle : b.toNat ≤ 126 := hq.1.1.2
    have hne : b.toNat ≠ 92 := fun h => hq.2 (UInt8.toNat_inj.1 h)
    have hc := charOfNat_toNat (n := b.toNat) (by omega)
    have hback : (Char.ofNat b.toNat) ≠ '\\' := fun h => hne (by rw [← hc, h]; rfl)
    rw [String.toList_singleton, List.singleton_append, readBytes.eq_def]
    dsimp only
    rw [if_neg hback, hc, if_pos (by omega)]
    simp [Nat.toUInt8]
  · -- any other byte is written in hexadecimal
    have hhi : b.toNat / 16 < 16 := by have := b.toNat_lt; omega
    have hlo : b.toNat % 16 < 16 := Nat.mod_lt _ (by omega)
    simp only [escapeByte, String.toList_ofList, List.cons_append, List.nil_append]
    rw [readBytes.eq_def]
    dsimp only
    rw [if_pos rfl]
    have hb : (b.toNat / 16 * 16 + b.toNat % 16).toUInt8 = b := by
      rw [Nat.div_add_mod']
      simp [Nat.toUInt8]
    simp only [hexValue?_hex _ hhi, hexValue?_hex _ hlo, Option.bind_eq_bind, Option.bind_some, hb]
    cases readBytes rest <;> rfl

/-- Reading written bytes gives them back, whatever follows. -/
theorem readBytes_join : ∀ (bs : List UInt8) (rest : List Char),
    readBytes ((String.join (bs.map byteText)).toList ++ rest) = (readBytes rest).map (bs ++ ·)
  | [], rest => by simp
  | b :: bs, rest => by
    rw [List.map_cons, String.join_cons, String.toList_append, List.append_assoc,
      readBytes_byteText, readBytes_join bs rest, Option.map_map]
    rfl

/-- The text of a string constant reads back as the UTF-8 bytes of its text and one zero. -/
theorem readBytes_charArray (s : String) :
    readBytes (escapeBytes s ++ "\\00").toList = some (s.toUTF8.toList ++ [0]) := by
  have hzero : "\\00" = byteText 0 := by decide
  have h := readBytes_join (s.toUTF8.toList ++ [0]) []
  rw [List.map_append, String.join_append, List.append_nil] at h
  rw [escapeBytes_eq, hzero]
  simpa [readBytes.eq_1] using h

/-- A string global is written as a private constant array of the bytes it holds, as many as
its type counts. -/
theorem global_reads_back (g : Global) :
    ∃ body : String, global g = "@" ++ name g.name ++ " = private constant [" ++
        toString g.bytes.length ++ " x i8] c\"" ++ body ++ "\"" ∧
      readBytes body.toList = some g.bytes := by
  refine ⟨escapeBytes g.text ++ "\\00", ?_, readBytes_charArray g.text⟩
  have hopen : " x i8] c\"" = " x i8] " ++ "c\"" := by decide
  have hclose : "\\00\"" = "\\00" ++ "\"" := by decide
  simp only [global, charArray, Global.length_bytes, hopen, hclose, String.append_assoc]

end Text

end Abla.Ir

namespace Abla.Codegen

/-! ### What a string constant pushes -/

section Constants

variable {g : Gen} {t : Tables}

/-- A text takes the operand of its table entry: the entry it had, or a new last one. -/
theorem stringConst_interned (h : Interned g.prog) (s : String) :
    ∃ k g', ((stringConst s).run.run g).run t = (.ok (strOperand k s), g') ∧
      g'.prog.strings[k]? = some (s, strOperand k s) ∧ Interned g'.prog ∧ g'.stack = g.stack := by
  by_cases hs : s ∈ g.prog.strings.map (·.1)
  · obtain ⟨⟨s', v⟩, hq, rfl⟩ := List.mem_map.1 hs
    obtain ⟨k, hk⟩ := List.mem_iff_getElem?.1 hq
    obtain rfl := h.operand k _ v hk
    exact ⟨k, g, stringConst_of_mem h hk t, hk, h, rfl⟩
  · refine ⟨g.prog.strings.length, _, stringConst_of_not_mem hs t, ?_, h.intern hs, rfl⟩
    simp [Interned.strings_intern_getElem?]

/-- A loop that appends each text part to what it has gathered. -/
theorem forIn_texts {f : Piece → String → G (ForInStep String)}
    (hf : ∀ s acc, f (.text s) acc = pure (.yield (acc ++ s))) :
    ∀ (parts : List Piece), (∀ p ∈ parts, p.isText = true) → ∀ acc,
      forIn parts acc f = pure (acc ++ Piece.joinTexts parts)
  | [], _, acc => by simp [Piece.joinTexts]
  | .text s :: ps, h, acc => by
    rw [List.forIn_cons, hf, pure_bind]
    dsimp only
    rw [forIn_texts hf ps (fun p hp => h p (.tail _ hp)) (acc ++ s), String.append_assoc]
    rfl
  | .interp e :: ps, h, acc => by
    simp [Piece.isText] at h

/-- A literal of text parts alone pushes the operand of its joined text's entry. -/
theorem genString_interned (h : Interned g.prog) {parts : List Piece}
    (hparts : ∀ p ∈ parts, p.isText = true) :
    ∃ (k : Nat) (g' : Gen), ((genString parts).run.run g).run t =
        (.ok (), { g' with stack := g.stack.pushValue (strOperand k (Piece.joinTexts parts)) }) ∧
      g'.prog.strings[k]? = some (Piece.joinTexts parts, strOperand k (Piece.joinTexts parts)) ∧
      Interned g'.prog := by
  obtain ⟨k, g', hrun, hk, hg', hst⟩ := stringConst_interned h (Piece.joinTexts parts) (t := t)
  refine ⟨k, g', ?_, hk, hg'⟩
  unfold genString
  dsimp only
  rw [forIn_texts (fun _ _ => rfl) parts hparts, pure_bind, String.empty_append, G.run_bind, hrun]
  simp only [push_run, hst]

/-- A `#` expression that computed a text pushes the operand of that text's entry. -/
theorem genConst_interned (h : Interned g.prog) {site : Site} {s : String}
    (hs : t.notes.constOf? site.id = some (.str s)) :
    ∃ (k : Nat) (g' : Gen), ((genConst site).run.run g).run t =
        (.ok (), { g' with stack := g.stack.pushValue (strOperand k s) }) ∧
      g'.prog.strings[k]? = some (s, strOperand k s) ∧ Interned g'.prog := by
  obtain ⟨k, g', hrun, hk, hg', hst⟩ := stringConst_interned h s (t := t)
  refine ⟨k, g', ?_, hk, hg'⟩
  simp only [genConst, G.read_bind, hs]
  rw [G.run_bind, hrun]
  simp only [push_run, hst]

end Constants

/-- String literals are read exactly and their constant texts interned by content. The raw text
of a literal reads as `Decodes` says, into pieces whose texts are never empty nor side by side,
and an escape that names no character is a parse error spanning it. A literal of text alone,
and a `#` expression that computed a text, push the address of the global of that text's table
entry, `str.k` holding the text; a text not yet in the table takes the next entry. In every
generated program the table is interned, so that two entries share their operand exactly when
their texts are equal, and every global is written as a private constant array of exactly the
UTF-8 bytes of its text and one zero. -/
theorem strings_decoded_and_interned :
    (∀ (interp : InterpReader) (line col : Nat) (raw : List Char) (ps : List Piece),
      Grammar.pieces interp line col 0 raw [] [] = .ok ps ↔
        Grammar.Decodes interp line col 0 raw ps) ∧
    (∀ (interp : InterpReader) (line col : Nat) (raw : List Char) (ps : List Piece),
      Grammar.pieces interp line col 0 raw [] [] = .ok ps → Grammar.TextsApart ps) ∧
    (∀ (interp : InterpReader) (line col : Nat) (pre t : List Char) (d : Char)
      (post : List Char), Grammar.opensNone pre = true → Grammar.unescape pre = some t →
      Grammar.escape? d = none →
      Grammar.pieces interp line col 0 (pre ++ '\\' :: d :: post) [] [] =
        .error (Grammar.parseError ⟨line, col + pre.length, line, col + pre.length + 2⟩
          ("unknown escape sequence: `\\" ++ String.singleton d ++ "`"))) ∧
    (∀ (g : Gen) (t : Tables) (parts : List Piece), Interned g.prog →
      (∀ p ∈ parts, p.isText = true) →
      ∃ (k : Nat) (g' : Gen), ((genString parts).run.run g).run t =
          (.ok (), { g' with stack := g.stack.pushValue (strOperand k (Piece.joinTexts parts)) }) ∧
        g'.prog.module.globals[k]? = some ⟨strName k, Piece.joinTexts parts⟩ ∧
        Interned g'.prog) ∧
    (∀ (g : Gen) (t : Tables) (site : Site) (s : String), Interned g.prog →
      t.notes.constOf? site.id = some (.str s) →
      ∃ (k : Nat) (g' : Gen), ((genConst site).run.run g).run t =
          (.ok (), { g' with stack := g.stack.pushValue (strOperand k s) }) ∧
        g'.prog.module.globals[k]? = some ⟨strName k, s⟩ ∧ Interned g'.prog) ∧
    (∀ (g : Gen) (t : Tables) (s : String), s ∉ g.prog.strings.map (·.1) →
      ((stringConst s).run.run g).run t =
        (.ok (strOperand g.prog.strings.length s), { g with prog := g.prog.intern s })) ∧
    (∀ (tables : Tables) (units : List SourceFile),
      Interned (generateProgram tables units).2 ∧
      ∀ (k₁ k₂ : Nat) (s₁ s₂ : String) (v₁ v₂ : Ir.Operand),
        (generateProgram tables units).2.strings[k₁]? = some (s₁, v₁) →
        (generateProgram tables units).2.strings[k₂]? = some (s₂, v₂) → (v₁ = v₂ ↔ s₁ = s₂)) ∧
    (∀ gl : Ir.Global, ∃ body : String,
      Ir.Text.global gl = "@" ++ Ir.Text.name gl.name ++ " = private constant [" ++
        toString gl.bytes.length ++ " x i8] c\"" ++ body ++ "\"" ∧
      Ir.Text.readBytes body.toList = some gl.bytes) := by
  refine ⟨fun interp line col raw ps => Grammar.pieces_eq_ok_iff,
    fun interp line col raw ps h => (Grammar.pieces_eq_ok_iff.1 h).textsApart, ?_, ?_, ?_,
    fun g t s hs => stringConst_of_not_mem hs t, fun tables units => ?_, Ir.Text.global_reads_back⟩
  · intro interp line col pre t d post hpre ht hd
    simpa using Grammar.pieces_unknown_escape interp line col hpre ht hd post 0 [] []
  · intro g t parts h hparts
    obtain ⟨k, g', hrun, hk, hg'⟩ := genString_interned (t := t) h hparts
    exact ⟨k, g', hrun, hg'.global k _ _ hk, hg'⟩
  · intro g t site s h hs
    obtain ⟨k, g', hrun, hk, hg'⟩ := genConst_interned h hs
    exact ⟨k, g', hrun, hg'.global k _ _ hk, hg'⟩
  · have h := generateProgram_interned tables units
    exact ⟨h, fun k₁ k₂ s₁ s₂ v₁ v₂ h₁ h₂ => h.operand_eq_iff h₁ h₂⟩

/-- In a program with no strings yet, the literal `"hi"` takes the first entry and its global,
and the raw text `a\q` fails at its escape. -/
theorem strings_decoded_and_interned_hi :
    (Grammar.opensNone ['a'] = true ∧ Grammar.unescape ['a'] = some ['a'] ∧
      Grammar.escape? 'q' = none ∧
      Grammar.pieces (fun _ _ => .error (Grammar.parseError default "")) 0 4 0
        ['a', '\\', 'q'] [] [] =
        .error (Grammar.parseError ⟨0, 5, 0, 7⟩ "unknown escape sequence: `\\q`")) ∧
    (Interned ({ prog := {}, unit := "u", unitPrefix := "u0." } : Gen).prog ∧
      (∀ p ∈ [Piece.text "hi"], p.isText = true) ∧
      ∃ (k : Nat) (g' : Gen), ((genString [.text "hi"]).run.run
          ({ prog := {}, unit := "u", unitPrefix := "u0." } : Gen)).run {} =
          (.ok (), { g' with
            stack := GenStack.pushValue {} (strOperand k (Piece.joinTexts [.text "hi"])) }) ∧
        g'.prog.module.globals[k]? = some ⟨strName k, Piece.joinTexts [.text "hi"]⟩ ∧
        Interned g'.prog) := by
  have hescape := strings_decoded_and_interned.2.2.1 (fun _ _ => .error (Grammar.parseError default ""))
    0 4 ['a'] ['a'] 'q' [] rfl rfl rfl
  have hmessage : "unknown escape sequence: `\\" ++ String.singleton 'q' ++ "`" =
      "unknown escape sequence: `\\q`" := by decide
  refine ⟨⟨rfl, rfl, rfl, by simpa [hmessage] using hescape⟩, Interned.empty, by decide, ?_⟩
  exact strings_decoded_and_interned.2.2.2.1 _ {} [.text "hi"] Interned.empty (by decide)

end Abla.Codegen
