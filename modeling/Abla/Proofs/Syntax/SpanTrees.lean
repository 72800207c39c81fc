import Mathlib.Data.Prod.Lex
import Abla.Proofs.Syntax.Lexemes

/-!
# Syntax trees seen through their spans

Positions are ordered as in the text, by line and then by column. A list of spans is a `Row`
between two positions when each span starts no earlier than the one before it ends and the last
ends by the upper position: the spans are then disjoint and in source order.

`Expr.tree` and its companions forget a syntax tree down to its spans: each node keeps its span,
the text it spells if it is an identifier or an integer literal (or a function's name), and the
nodes under it in source order. A tree is `Faithful` to a text when under every node the children
form a row inside the node's span and every node that spells a word delimits that word in the
text.
-/

namespace Abla

namespace Position

/-- A position as its line and column, compared line first. -/
def key (p : Position) : ℕ ×ₗ ℕ := toLex (p.line, p.col)

theorem key_injective : Function.Injective key := by
  rintro ⟨l, c⟩ ⟨l', c'⟩ h
  simp only [key, toLex_inj, Prod.mk.injEq] at h
  obtain ⟨rfl, rfl⟩ := h
  rfl

/-- Positions in source order: by line, then by column. -/
instance : LinearOrder Position := LinearOrder.lift' key key_injective

theorem le_iff {p q : Position} : p ≤ q ↔ p.line < q.line ∨ p.line = q.line ∧ p.col ≤ q.col :=
  Prod.Lex.toLex_le_toLex

theorem le_advance (p : Position) (c : Char) : p ≤ p.advance c := by
  rw [le_iff, advance]
  split <;> simp

theorem le_advanceAll (p : Position) (cs : List Char) : p ≤ p.advanceAll cs := by
  induction cs generalizing p with
  | nil => exact le_rfl
  | cons c cs ih => exact (le_advance p c).trans (ih (p.advance c))

/-- Reading text without a newline moves along the line, one column a character. -/
theorem advanceAll_plain (p : Position) {cs : List Char} (h : '\n' ∉ cs) :
    p.advanceAll cs = ⟨p.line, p.col + cs.length⟩ := by
  induction cs generalizing p with
  | nil => rfl
  | cons c cs ih =>
    simp only [List.mem_cons, not_or] at h
    rw [advanceAll_cons, ih _ h.2, advance, if_neg (Ne.symm h.1)]
    simp only [List.length_cons, mk.injEq, true_and]
    omega

end Position

namespace Span

/-- The position where a span ends, one past its last character. -/
def finish (s : Span) : Position := ⟨s.endLine, s.endCol⟩

@[simp] theorem between_start (a b : Position) : (between a b).start = a := rfl

@[simp] theorem between_finish (a b : Position) : (between a b).finish = b := rfl

@[simp] theorem hull_finish (a b : Span) : (hull a b).finish = b.finish := rfl

/-- Spans in order between `lo` and `hi`: each runs forwards, starts no earlier than the one
before it ends, and the last ends by `hi`. -/
def Row : Position → Position → List Span → Prop
  | lo, hi, [] => lo ≤ hi
  | lo, hi, s :: ss => lo ≤ s.start ∧ s.start ≤ s.finish ∧ Row s.finish hi ss

namespace Row

@[simp] theorem nil_iff {lo hi : Position} : Row lo hi [] ↔ lo ≤ hi := Iff.rfl

@[simp] theorem cons_iff {lo hi : Position} {s : Span} {ss : List Span} :
    Row lo hi (s :: ss) ↔ lo ≤ s.start ∧ s.start ≤ s.finish ∧ Row s.finish hi ss := Iff.rfl

theorem le {lo hi : Position} {ss : List Span} (h : Row lo hi ss) : lo ≤ hi := by
  induction ss generalizing lo with
  | nil => exact h
  | cons s ss ih => exact h.1.trans (h.2.1.trans (ih h.2.2))

theorem mono_left {lo lo' hi : Position} {ss : List Span} (h : Row lo hi ss) (hl : lo' ≤ lo) :
    Row lo' hi ss := by
  cases ss with
  | nil => exact hl.trans h
  | cons s ss => exact ⟨hl.trans h.1, h.2⟩

theorem mono_right {lo hi hi' : Position} {ss : List Span} (h : Row lo hi ss) (hh : hi ≤ hi') :
    Row lo hi' ss := by
  induction ss generalizing lo with
  | nil => exact h.trans hh
  | cons s ss ih => exact ⟨h.1, h.2.1, ih h.2.2⟩

theorem append {lo mid hi : Position} {ss ts : List Span} (hs : Row lo mid ss)
    (ht : Row mid hi ts) : Row lo hi (ss ++ ts) := by
  induction ss generalizing lo with
  | nil => exact ht.mono_left hs
  | cons s ss ih => exact ⟨hs.1, hs.2.1, ih hs.2.2⟩

/-- A row ends where its last span does. -/
theorem cap {lo hi : Position} {ss : List Span} {s : Span} (h : Row lo hi (ss ++ [s])) :
    Row lo s.finish (ss ++ [s]) := by
  induction ss generalizing lo with
  | nil => exact ⟨h.1, h.2.1, le_rfl⟩
  | cons t ss ih => exact ⟨h.1, h.2.1, ih h.2.2⟩

/-- A row starts where its first span does. -/
theorem start {lo hi : Position} {s : Span} {ss : List Span} (h : Row lo hi (s :: ss)) :
    Row s.start hi (s :: ss) :=
  ⟨le_rfl, h.2⟩

end Row

end Span

/-- The span `sp` delimits `w` in the text `src` read from position `p`: `w` stands in `src`
where `sp` starts, and `sp` ends where `w` does. -/
def Delimits (p : Position) (src : List Char) (sp : Span) (w : List Char) : Prop :=
  ∃ pre post, src = pre ++ w ++ post ∧
    sp = Span.between (p.advanceAll pre) (p.advanceAll (pre ++ w))

namespace Delimits

variable {p : Position} {src : List Char} {sp : Span} {w : List Char}

theorem start_le_finish (h : Delimits p src sp w) : sp.start ≤ sp.finish := by
  obtain ⟨pre, post, -, rfl⟩ := h
  simpa [Position.advanceAll_append] using Position.le_advanceAll _ w

/-- A span that delimits a word in a stretch of a text delimits it in the whole text, read
from the position where the text starts. -/
theorem within {q : Position} {text P Q : List Char} (h : Delimits p text sp w)
    (hsrc : src = P ++ text ++ Q) (hp : q.advanceAll P = p) : Delimits q src sp w := by
  obtain ⟨pre, post, rfl, rfl⟩ := h
  refine ⟨P ++ pre, post ++ Q, by simp [hsrc], ?_⟩
  simp [Position.advanceAll_append, hp]

end Delimits

/-- A syntax tree seen through its spans: each node's span, the text it spells if it is an
identifier, an integer literal or a declared name, and the nodes under it in source order. -/
inductive SpanTree where
  | node (span : Span) (word : Option String) (kids : List SpanTree)
  deriving Inhabited

/-- The span of a node. -/
def SpanTree.span : SpanTree → Span
  | .node s _ _ => s

@[simp] theorem SpanTree.span_node (s : Span) (w : Option String) (kids : List SpanTree) :
    (SpanTree.node s w kids).span = s := rfl

/-- A span tree faithful to the text `src`: under every node the children form a row inside the
node's span, and a node that spells a word delimits it in `src`. -/
inductive SpanTree.Faithful (src : List Char) : SpanTree → Prop
  | node {sp : Span} {w : Option String} {kids : List SpanTree} :
      (∀ x ∈ w, Delimits ⟨0, 0⟩ src sp x.toList) → Span.Row sp.start sp.finish (kids.map span) →
      (∀ k ∈ kids, k.Faithful src) → SpanTree.Faithful src (.node sp w kids)

/-- Span trees laid in order between `lo` and `hi`, each faithful to `src`. -/
def Laid (src : List Char) (lo hi : Position) (ts : List SpanTree) : Prop :=
  Span.Row lo hi (ts.map SpanTree.span) ∧ ∀ t ∈ ts, t.Faithful src

namespace Laid

variable {src : List Char} {lo hi : Position}

theorem nil (h : lo ≤ hi) : Laid src lo hi [] := ⟨h, by simp⟩

theorem le {ts : List SpanTree} (h : Laid src lo hi ts) : lo ≤ hi := h.1.le

theorem mono {lo' hi' : Position} {ts : List SpanTree} (h : Laid src lo hi ts) (hl : lo' ≤ lo)
    (hh : hi ≤ hi') : Laid src lo' hi' ts :=
  ⟨(h.1.mono_left hl).mono_right hh, h.2⟩

theorem append {mid : Position} {ts us : List SpanTree} (ht : Laid src lo mid ts)
    (hu : Laid src mid hi us) : Laid src lo hi (ts ++ us) := by
  refine ⟨?_, fun t h => ?_⟩
  · rw [List.map_append]
    exact ht.1.append hu.1
  · rcases List.mem_append.1 h with h | h
    · exact ht.2 t h
    · exact hu.2 t h

/-- Trees laid out end where the last of them ends. -/
theorem cap {ts : List SpanTree} {t : SpanTree} (h : Laid src lo hi (ts ++ [t])) :
    Laid src lo t.span.finish (ts ++ [t]) := by
  refine ⟨?_, h.2⟩
  have := h.1
  rw [List.map_append, List.map_singleton] at this ⊢
  exact this.cap

/-- Trees laid out start where the first of them starts. -/
theorem start {t : SpanTree} {ts : List SpanTree} (h : Laid src lo hi (t :: ts)) :
    Laid src t.span.start hi (t :: ts) :=
  ⟨Span.Row.start h.1, h.2⟩

theorem single_iff {t : SpanTree} :
    Laid src lo hi [t] ↔ lo ≤ t.span.start ∧ t.span.start ≤ t.span.finish ∧
      t.span.finish ≤ hi ∧ t.Faithful src := by
  simp [Laid, and_assoc]

/-- A node over children laid out inside its span, itself laid out between `lo` and `hi`. -/
theorem node {a b : Position} {sp : Span} {w : Option String} {kids : List SpanTree}
    (hk : Laid src a b kids) (ha : sp.start ≤ a) (hb : b ≤ sp.finish)
    (hw : ∀ x ∈ w, Delimits ⟨0, 0⟩ src sp x.toList) (hlo : lo ≤ sp.start)
    (hhi : sp.finish ≤ hi) : Laid src lo hi [.node sp w kids] := by
  have hrow : Span.Row sp.start sp.finish (kids.map SpanTree.span) :=
    (hk.1.mono_left ha).mono_right hb
  exact single_iff.2 ⟨hlo, hrow.le, hhi, .node hw hrow hk.2⟩

end Laid

/-! ## The span trees of syntax trees -/

mutual

/-- The span tree of an expression; identifiers and integer literals spell their text. -/
def Expr.tree : Expr → SpanTree
  | .ident s n => .node s.span (some n) []
  | .int s t => .node s.span (some t) []
  | .str s ps => .node s.span none (Piece.trees ps)
  | .call s f as => .node s.span none (f.tree :: Expr.trees as)
  | .lambda s b => .node s.span none [b.tree]
  | .binary s _ l r => .node s.span none [l.tree, r.tree]
  | .exec s e => .node s.span none [e.tree]

/-- The span trees of expressions, in order. -/
def Expr.trees : List Expr → List SpanTree
  | [] => []
  | e :: es => e.tree :: Expr.trees es

/-- The span trees of the interpolations of a string literal, in order. -/
def Piece.trees : List Piece → List SpanTree
  | [] => []
  | .text _ :: ps => Piece.trees ps
  | .interp e :: ps => e.tree :: Piece.trees ps

/-- The span tree of a statement. -/
def Stmt.tree : Stmt → SpanTree
  | .expr s e => .node s.span none [e.tree]
  | .ret s none => .node s.span none []
  | .ret s (some e) => .node s.span none [e.tree]

/-- The span trees of statements, in order. -/
def Stmt.trees : List Stmt → List SpanTree
  | [] => []
  | s :: ss => s.tree :: Stmt.trees ss

/-- The span tree of a block. -/
def Block.tree : Block → SpanTree
  | .mk s ss => .node s.span none (Stmt.trees ss)

end

mutual

/-- The span tree of a type label. -/
def TypeLabel.tree : TypeLabel → SpanTree
  | .named _ ps s => .node s none (TypeLabel.trees ps)
  | .func ps r s => .node s none (TypeLabel.trees ps ++ [r.tree])

/-- The span trees of type labels, in order. -/
def TypeLabel.trees : List TypeLabel → List SpanTree
  | [] => []
  | t :: ts => t.tree :: TypeLabel.trees ts

end

/-- The span tree of a modifier, over the library name of an `extern`. -/
def Modifier.tree : Modifier → SpanTree
  | .external none s => .node s none []
  | .external (some e) s => .node s none [e.tree]
  | .compiler s => .node s none []

/-- The span tree of a parameter, over its type label. -/
def Param.tree (p : Param) : SpanTree := .node p.site.span none [p.label.tree]

/-- The span tree of a function declaration: its modifiers, its name, its parameters, its
return type and its body, in source order. -/
def FuncDecl.tree (f : FuncDecl) : SpanTree :=
  .node f.site.span none (f.modifiers.map Modifier.tree ++ [.node f.nameSpan (some f.name) []] ++
    f.params.map Param.tree ++ (f.ret.map TypeLabel.tree).toList ++ (f.body.map Block.tree).toList)

mutual

/-- The span tree of a declaration. -/
def Decl.tree : Decl → SpanTree
  | .func f => f.tree
  | .cls s _ ms members => .node s.span none (ms.map Modifier.tree ++ Decl.trees members)
  | .hashCall s e => .node s.span none [e.tree]

/-- The span trees of declarations, in order. -/
def Decl.trees : List Decl → List SpanTree
  | [] => []
  | d :: ds => d.tree :: Decl.trees ds

end

/-- The span tree of a file, over its declarations. -/
def SourceFile.tree (f : SourceFile) : SpanTree := .node f.site.span none (Decl.trees f.decls)

theorem Expr.trees_eq_map (es : List Expr) : Expr.trees es = es.map Expr.tree := by
  induction es with
  | nil => rfl
  | cons e es ih => simp [Expr.trees, ih]

theorem Stmt.trees_eq_map (ss : List Stmt) : Stmt.trees ss = ss.map Stmt.tree := by
  induction ss with
  | nil => rfl
  | cons s ss ih => simp [Stmt.trees, ih]

theorem TypeLabel.trees_eq_map (ts : List TypeLabel) : TypeLabel.trees ts = ts.map TypeLabel.tree := by
  induction ts with
  | nil => rfl
  | cons t ts ih => simp [TypeLabel.trees, ih]

theorem Decl.trees_eq_map (ds : List Decl) : Decl.trees ds = ds.map Decl.tree := by
  induction ds with
  | nil => rfl
  | cons d ds ih => simp [Decl.trees, ih]

theorem Piece.trees_append (ps qs : List Piece) :
    Piece.trees (ps ++ qs) = Piece.trees ps ++ Piece.trees qs := by
  induction ps with
  | nil => rfl
  | cons p ps ih =>
    cases p with
    | text t => simpa [Piece.trees] using ih
    | interp e => simp [Piece.trees, ih]

@[simp] theorem Expr.tree_span (e : Expr) : e.tree.span = e.span := by
  cases e <;> rfl

@[simp] theorem Block.tree_span (b : Block) : b.tree.span = b.site.span := by
  cases b; rfl

@[simp] theorem TypeLabel.tree_span (t : TypeLabel) : t.tree.span = t.span := by
  cases t <;> rfl

end Abla
