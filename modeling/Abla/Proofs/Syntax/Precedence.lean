import Mathlib
import Abla.Syntax.Parse

/-!
# Binary operators parse by precedence

The four operator levels of the grammar, loosest first, are `== !=`, then `< > <= >=`, then
`+ -`, then `* /` (`BinOp.level`). A binary expression is a sequence `x₀ op₁ x₁ … opₙ xₙ` of
postfix operands and operators; its structure is an `OpTree` over the operands, which are
leaves whatever they hold, so a parenthesized expression is one operand. A tree is `Ranked`
when no operator has a side whose top operator is looser than it, and none has a right side
whose top operator is of its own level: precedence, and equal levels associating to the left.

`OpTree.Ranked.unique`: a sequence has at most one ranked tree, since the top operator of a
ranked tree is the rightmost of the loosest level in it. `Grammar.binary_precedence`: read
from such a sequence, each operator possibly followed by newlines and the whole ended by a
token that is no operator, `binary` at the loosest level gives that tree and stops at the end,
and a `#` before the sequence applies to all of it. A newline ends the sequence even when an
operator follows it.

The proof follows the recursion of `binary` and `binaryRest` level by level
(`BinaryReads`): at level `l`, `binary` reads the longest prefix whose operators are of level
`l` or above, and `binaryRest` adds the operators of level `l` one by one, each taking the tree
so far as its left side.
-/

namespace Abla

section Lists

/-- Cutting a list at the first element failing `q`, where `q` implies `p`: the longest prefix
satisfying `p` runs on past that cut. -/
theorem takeWhile_of_imp {α : Type} {p q : α → Bool} (h : ∀ a, q a = true → p a = true) :
    ∀ xs : List α, xs.takeWhile p = xs.takeWhile q ++ (xs.dropWhile q).takeWhile p
  | [] => rfl
  | x :: xs => by
    by_cases hq : q x = true
    · simp [hq, h x hq, takeWhile_of_imp h xs]
    · simp [hq]

theorem dropWhile_of_imp {α : Type} {p q : α → Bool} (h : ∀ a, q a = true → p a = true) :
    ∀ xs : List α, xs.dropWhile p = (xs.dropWhile q).dropWhile p
  | [] => rfl
  | x :: xs => by
    by_cases hq : q x = true
    · simp [hq, h x hq, dropWhile_of_imp h xs]
    · simp [hq]

end Lists

namespace BinOp

/-- The precedence level of an operator, from `0` for the loosest (`==`, `!=`) to `3` for the
tightest (`*`, `/`). -/
def level : BinOp → Nat
  | .eq | .neq => 0
  | .gt | .lt | .ge | .le => 1
  | .add | .sub => 2
  | .mul | .div => 3

/-- The token kind that spells an operator. -/
def token : BinOp → TokenKind
  | .add => .plus
  | .sub => .minus
  | .mul => .star
  | .div => .div
  | .eq => .eq
  | .neq => .neq
  | .gt => .gt
  | .lt => .lt
  | .ge => .gtEq
  | .le => .ltEq

theorem level_lt (op : BinOp) : op.level < 4 := by
  cases op <;> decide

theorem token_injective : Function.Injective token := by
  intro a b h
  cases a <;> cases b <;> first | rfl | cases h

theorem token_ne_lparen (op : BinOp) : op.token ≠ .lparen := by
  cases op <;> decide

theorem token_ne_lbrace (op : BinOp) : op.token ≠ .lbrace := by
  cases op <;> decide

theorem token_ne_newline (op : BinOp) : op.token ≠ .newline := by
  cases op <;> decide

end BinOp

/-- The operator structure of a binary expression over its operands. An operand is a leaf,
whatever its own tree: a parenthesized expression is one operand. -/
inductive OpTree where
  | leaf (e : Expr)
  | node (op : BinOp) (l r : OpTree)

namespace OpTree

/-- The expression a tree of operators builds: each operator node spans its two sides. -/
def toExpr : OpTree → Expr
  | leaf e => e
  | node op l r => .binary ⟨0, Span.hull l.toExpr.span r.toExpr.span⟩ op l.toExpr r.toExpr

/-- The operands, left to right. -/
def operands : OpTree → List Expr
  | leaf e => [e]
  | node _ l r => l.operands ++ r.operands

/-- The operators, left to right. -/
def ops : OpTree → List BinOp
  | leaf _ => []
  | node op l r => l.ops ++ op :: r.ops

/-- The level of the operator at the top; an operand binds tighter than every operator. -/
def top : OpTree → Nat
  | leaf _ => 4
  | node op _ _ => op.level

/-- Precedence and left associativity: no operator has a side whose top operator is of a
lower level, and none has a right side whose top operator is of its own level. -/
def Ranked : OpTree → Prop
  | leaf _ => True
  | node op l r => op.level ≤ l.top ∧ op.level < r.top ∧ l.Ranked ∧ r.Ranked

/-- Whether a tree is ranked can be computed. -/
instance decidableRanked : (t : OpTree) → Decidable t.Ranked
  | leaf _ => isTrue trivial
  | node op l r =>
    haveI := decidableRanked l
    haveI := decidableRanked r
    inferInstanceAs (Decidable (op.level ≤ l.top ∧ op.level < r.top ∧ l.Ranked ∧ r.Ranked))

theorem length_operands : ∀ t : OpTree, t.operands.length = t.ops.length + 1
  | leaf _ => rfl
  | node _ l r => by
    simp only [operands, ops, List.length_append, List.length_cons,
      length_operands l, length_operands r]
    omega

/-- The top operator of a ranked tree is of the loosest level in it. -/
theorem Ranked.top_le : ∀ {t : OpTree}, t.Ranked → ∀ op ∈ t.ops, t.top ≤ op.level
  | leaf _, _, op, h => by simp [ops] at h
  | node o l r, ⟨hl, hr, hrl, hrr⟩, op, h => by
    simp only [ops, List.mem_append, List.mem_cons] at h
    rcases h with h | rfl | h
    · exact Nat.le_trans hl (hrl.top_le op h)
    · exact Nat.le_refl _
    · exact Nat.le_of_lt (Nat.lt_of_lt_of_le hr (hrr.top_le op h))

/-- Two ranked trees over one operator sequence split it at the same operator: were one split
left of the other, the operator where the other splits would lie right of the first split, so
of a level above it, and left of the second, so of a level at most it. -/
theorem Ranked.split_eq {o o' : BinOp} {l r l' r' : OpTree}
    (h : (node o l r).Ranked) (h' : (node o' l' r').Ranked)
    (hops : l.ops ++ o :: r.ops = l'.ops ++ o' :: r'.ops) :
    l.ops = l'.ops ∧ o = o' ∧ r.ops = r'.ops := by
  obtain ⟨hl, hr, hrl, hrr⟩ := h
  obtain ⟨hl', hr', hrl', hrr'⟩ := h'
  rcases List.append_eq_append_iff.1 hops with ⟨a, hl'a, ha⟩ | ⟨c, hlc, hc⟩
  · cases a with
    | nil =>
      simp only [List.append_nil, List.nil_append, List.cons.injEq]
        at hl'a ha
      exact ⟨hl'a.symm, ha.1, ha.2⟩
    | cons x a =>
      simp only [List.cons_append, List.cons.injEq] at ha
      obtain ⟨rfl, hra⟩ := ha
      have h₁ : o.level < o'.level :=
        Nat.lt_of_lt_of_le hr (hrr.top_le o' (by simp [hra]))
      have h₂ : o'.level ≤ o.level :=
        Nat.le_trans hl' (hrl'.top_le o (by simp [hl'a]))
      omega
  · cases c with
    | nil =>
      simp only [List.append_nil, List.nil_append, List.cons.injEq]
        at hlc hc
      exact ⟨hlc, hc.1.symm, hc.2.symm⟩
    | cons x c =>
      simp only [List.cons_append, List.cons.injEq] at hc
      obtain ⟨rfl, hrc⟩ := hc
      have h₁ : o'.level < o.level :=
        Nat.lt_of_lt_of_le hr' (hrr'.top_le o (by simp [hrc]))
      have h₂ : o.level ≤ o'.level :=
        Nat.le_trans hl (hrl.top_le o' (by simp [hlc]))
      omega

/-- A sequence of operands and operators has at most one ranked tree. -/
theorem Ranked.unique : ∀ {t t' : OpTree}, t.Ranked → t'.Ranked →
    t.operands = t'.operands → t.ops = t'.ops → t = t'
  | leaf e, leaf e', _, _, hx, _ => by simpa [operands] using hx
  | leaf _, node _ _ _, _, _, _, ho => by simp [ops] at ho
  | node _ _ _, leaf _, _, _, _, ho => by simp [ops] at ho
  | node o l r, node o' l' r', h, h', hx, ho => by
    obtain ⟨hlo, rfl, hro⟩ := h.split_eq h' ho
    -- the left sides have one operand more than they have operators
    have hlen : l.operands.length = l'.operands.length := by
      rw [length_operands, length_operands, hlo]
    obtain ⟨hlx, hrx⟩ := List.append_inj hx hlen
    rw [h.2.2.1.unique h'.2.2.1 hlx hlo, h.2.2.2.unique h'.2.2.2 hrx hro]

end OpTree

namespace TokenStream

/-- The stream that reads the tokens `pre` first and then those of `s`. -/
def along (s : TokenStream) : List Token → TokenStream
  | [] => s
  | t :: ts => ⟨t, ts ++ s.cur :: s.rest, s.stop⟩

@[simp] theorem along_nil (s : TokenStream) : s.along [] = s := rfl

@[simp] theorem along_cons_cur (s : TokenStream) (t : Token) (ts : List Token) :
    (s.along (t :: ts)).cur = t := rfl

@[simp] theorem along_cons_kind (s : TokenStream) (t : Token) (ts : List Token) :
    (s.along (t :: ts)).kind = t.kind := rfl

theorem along_append (s : TokenStream) (xs ys : List Token) :
    s.along (xs ++ ys) = (s.along ys).along xs := by
  cases xs with
  | nil => rfl
  | cons x xs =>
    cases ys with
    | nil => simp [along]
    | cons y ys => simp [along]

end TokenStream

namespace Grammar

/-- What a grammar function read: the value and the stream after it. -/
def Taken.out {s : TokenStream} {α : Type} (r : Taken s α) : α × TokenStream := (r.val, r.next)

/-- What a grammar function that may read nothing read: the value and the stream after it. -/
def Parsed.out {s : TokenStream} {α : Type} (r : Parsed s α) : α × TokenStream :=
  (r.val, r.next)

theorem Taken.eq_ok {s : TokenStream} {α : Type} {x : Except Failure (Taken s α)} {v : α}
    {n : TokenStream} (h : x.map Taken.out = .ok (v, n)) : ∃ hlt, x = .ok ⟨v, n, hlt⟩ := by
  cases x with
  | error e => cases h
  | ok r =>
    simp only [Except.map, Taken.out, Except.ok.injEq, Prod.mk.injEq] at h
    obtain ⟨rfl, rfl⟩ := h
    exact ⟨r.lt, rfl⟩

theorem Parsed.eq_ok {s : TokenStream} {α : Type} {x : Except Failure (Parsed s α)} {v : α}
    {n : TokenStream} (h : x.map Parsed.out = .ok (v, n)) : ∃ hle, x = .ok ⟨v, n, hle⟩ := by
  cases x with
  | error e => cases h
  | ok r =>
    simp only [Except.map, Parsed.out, Except.ok.injEq, Prod.mk.injEq] at h
    obtain ⟨rfl, rfl⟩ := h
    exact ⟨r.le, rfl⟩

/-- The level table: the operators of level `l` are those of that level, each spelled by its
token. -/
theorem opAt_eq_some {l : Nat} {k : TokenKind} {op : BinOp} (h : opAt l k = some op) :
    k = op.token ∧ op.level = l := by
  unfold opAt at h
  split at h <;> cases h <;> exact ⟨rfl, rfl⟩

theorem opAt_token (op : BinOp) : opAt op.level op.token = some op := by
  cases op <;> rfl

theorem opAt_token_of_ne {l : Nat} {op : BinOp} (h : op.level ≠ l) : opAt l op.token = none := by
  cases hk : opAt l op.token with
  | none => rfl
  | some op' =>
    obtain ⟨htok, hlev⟩ := opAt_eq_some hk
    obtain rfl := BinOp.token_injective htok
    exact absurd hlev h

section Streams

variable {s : TokenStream}

/-- Stepping past the first of the tokens read before `s`. -/
theorem advance_along (t : Token) (ts : List Token) :
    ∃ h, advance (s.along (t :: ts)) = .ok ⟨(), s.along ts, h⟩ := by
  cases ts with
  | nil => exact ⟨by simp [TokenStream.size, TokenStream.along], rfl⟩
  | cons u us => exact ⟨by simp [TokenStream.size, TokenStream.along], rfl⟩

/-- Newline tokens are skipped up to a token of another kind. -/
theorem newlines_along (hs : s.kind ≠ .newline) :
    ∀ ns : List Token, (∀ t ∈ ns, t.kind = .newline) →
      ∃ h, newlines (s.along ns) = .ok ⟨(), s, h⟩
  | [], _ => by
    rw [newlines, if_neg (show ¬(s.along []).kind = .newline from hs)]
    exact ⟨_, rfl⟩
  | n :: ns, hn => by
    obtain ⟨h₁, e₁⟩ := advance_along (s := s) n ns
    obtain ⟨h₂, e₂⟩ := newlines_along hs ns fun t ht => hn t (List.mem_cons_of_mem n ht)
    refine ⟨Nat.le_of_lt (Nat.lt_of_le_of_lt h₂ h₁), ?_⟩
    rw [newlines,
      if_pos (show (s.along (n :: ns)).kind = .newline from hn n List.mem_cons_self)]
    simp only [e₁, e₂, bind, Except.bind]

end Streams

section Sequences

variable {interp : InterpReader}

/-- The tokens `xs` form a postfix operand with tree `e`: followed by a token that cannot
continue a call chain, a call chain reads exactly them and gives `e`. -/
def Operand (interp : InterpReader) (xs : List Token) (e : Expr) : Prop :=
  ∀ s : TokenStream, s.kind ≠ .lparen → s.kind ≠ .lbrace →
    (callChain interp (s.along xs)).map Taken.out = .ok (e, s)

/-- A call chain starts with a primary expression: never with a newline or a `#`. -/
theorem callChain_kind {s : TokenStream} {r : Taken s Expr} (h : callChain interp s = .ok r) :
    s.kind ≠ .newline ∧ s.kind ≠ .hash := by
  constructor <;> intro hk <;> simp [callChain, primary, hk, bind, Except.bind] at h

/-- An identifier is an operand, with itself as its tree. -/
theorem Operand.ident (n : String) (sp : Span) :
    Operand interp [⟨.ident, n, sp⟩] (.ident ⟨0, sp⟩ n) := by
  intro s hl hb
  obtain ⟨h₁, e₁⟩ := advance_along (s := s) ⟨.ident, n, sp⟩ []
  rw [callChain, primary]
  simp only [TokenStream.along_cons_kind, want, if_pos, e₁, bind, Except.bind]
  rw [suffixes, if_neg (show ¬(s.along []).kind = .lparen from hl),
    if_neg (show ¬(s.along []).kind = .lbrace from hb)]
  rfl

/-- One operator of a sequence and the operand after it: the operator's token, the newlines
after it, and the operand's tokens and tree. -/
structure OpStep where
  op : BinOp
  opTok : Token
  breaks : List Token
  operand : List Token
  tree : Expr

namespace OpStep

/-- The tokens of a step, in order. -/
def tokens (st : OpStep) : List Token := st.opTok :: (st.breaks ++ st.operand)

/-- Whether the step's operator is of level `l` or above. -/
def binds (l : Nat) (st : OpStep) : Bool := decide (l ≤ st.op.level)

/-- A step as the grammar reads one: the token spells the operator, only newlines follow it,
and then a postfix operand. -/
structure Fits (interp : InterpReader) (st : OpStep) : Prop where
  spells : st.opTok.kind = st.op.token
  breaks : ∀ t ∈ st.breaks, t.kind = .newline
  operand : Operand interp st.operand st.tree

/-- An operator of level `l + 1` or above is of level `l` or above. -/
theorem binds_of_succ {l : Nat} (st : OpStep) (h : binds (l + 1) st = true) :
    binds l st = true := by
  simp only [binds, decide_eq_true_eq] at h ⊢
  omega

/-- After the longest prefix of operators of level `l + 1` or above comes none. -/
theorem head_dropWhile_binds {l : Nat} (rest : List OpStep) :
    ∀ st ∈ (rest.dropWhile (binds (l + 1))).head?, st.op.level ≤ l := by
  intro st hst
  have h := List.head?_dropWhile_not (binds (l + 1)) rest
  rw [Option.mem_def] at hst
  rw [hst] at h
  simp only [binds, decide_eq_false_iff_not, Nat.not_le] at h
  omega

end OpStep

/-- A token that ends a sequence of operands and operators: it is no operator, and it cannot
continue a call chain. A newline is one, whatever follows it. -/
structure Ends (s : TokenStream) : Prop where
  not_op : ∀ op : BinOp, s.kind ≠ op.token
  not_lparen : s.kind ≠ .lparen
  not_lbrace : s.kind ≠ .lbrace

theorem opAt_none_of_ends {s : TokenStream} (hs : Ends s) (l : Nat) : opAt l s.kind = none := by
  cases h : opAt l s.kind with
  | none => rfl
  | some op => exact absurd (opAt_eq_some h).1 (hs.not_op op)

/-- What follows an operand in a sequence never continues it: it is the next operator, or the
end. -/
theorem Ends.continues {s : TokenStream} (hs : Ends s) :
    ∀ rest : List OpStep, (∀ st ∈ rest, st.Fits interp) →
      (s.along (rest.flatMap OpStep.tokens)).kind ≠ .lparen ∧
        (s.along (rest.flatMap OpStep.tokens)).kind ≠ .lbrace
  | [], _ => ⟨hs.not_lparen, hs.not_lbrace⟩
  | st :: rest, h => by
    have hk : (s.along ((st :: rest).flatMap OpStep.tokens)).kind = st.op.token :=
      (h st List.mem_cons_self).spells
    rw [hk]
    exact ⟨st.op.token_ne_lparen, st.op.token_ne_lbrace⟩

/-- What `binary` reads at level `l` from a sequence of operands and operators that `s` ends:
the longest prefix whose operators are of level `l` or above, as a ranked tree whose top is of
level `l` or above, leaving the stream at the first operator below `l`. -/
def BinaryReads (interp : InterpReader) (l : Nat) : Prop :=
  ∀ (x₀ : List Token) (e₀ : Expr) (steps : List OpStep) (s : TokenStream),
    Operand interp x₀ e₀ → (∀ st ∈ steps, st.Fits interp) → Ends s →
    ∃ t : OpTree, t.Ranked ∧ l ≤ t.top ∧
      t.operands = e₀ :: (steps.takeWhile (OpStep.binds l)).map (·.tree) ∧
      t.ops = (steps.takeWhile (OpStep.binds l)).map (·.op) ∧
      (binary interp l ((s.along (steps.flatMap OpStep.tokens)).along x₀)).map Taken.out =
        .ok (t.toExpr, s.along ((steps.dropWhile (OpStep.binds l)).flatMap OpStep.tokens))

/-- Past the operator levels, `binary` reads one operand. -/
theorem binaryReads_four : BinaryReads interp 4 := by
  intro x₀ e₀ steps s h₀ hsteps hs
  have htake : steps.takeWhile (OpStep.binds 4) = [] := by
    cases steps with
    | nil => rfl
    | cons st _ => simp [OpStep.binds, st.op.level_lt]
  have hdrop : steps.dropWhile (OpStep.binds 4) = steps := by
    cases steps with
    | nil => rfl
    | cons st _ => simp [OpStep.binds, st.op.level_lt]
  obtain ⟨hc₁, hc₂⟩ := hs.continues steps hsteps
  refine ⟨.leaf e₀, trivial, le_rfl, by simp [htake, OpTree.operands],
    by simp [htake, OpTree.ops], ?_⟩
  rw [hdrop, binary, if_neg (Nat.lt_irrefl 4)]
  exact h₀ _ hc₁ hc₂

/-- The operators of level `l` after a ranked left side: each takes the tree so far as its left
side and what the levels above read after it as its right side. The recursion follows
`binaryRest` along the rest of the sequence. -/
theorem binaryRest_reads {l : Nat} (hbin : BinaryReads interp (l + 1)) {s : TokenStream}
    (hs : Ends s) :
    ∀ (rest : List OpStep) (lhs : OpTree), (∀ st ∈ rest, st.Fits interp) → lhs.Ranked →
      l ≤ lhs.top → (∀ st ∈ rest.head?, st.op.level ≤ l) →
      ∃ t : OpTree, t.Ranked ∧ l ≤ t.top ∧
        t.operands = lhs.operands ++ (rest.takeWhile (OpStep.binds l)).map (·.tree) ∧
        t.ops = lhs.ops ++ (rest.takeWhile (OpStep.binds l)).map (·.op) ∧
        (binaryRest interp l lhs.toExpr (s.along (rest.flatMap OpStep.tokens))).map Parsed.out =
          .ok (t.toExpr, s.along ((rest.dropWhile (OpStep.binds l)).flatMap OpStep.tokens))
  | [], lhs, _, hr, htop, _ => by
    refine ⟨lhs, hr, htop, by simp, by simp, ?_⟩
    rw [binaryRest, List.flatMap_nil, TokenStream.along_nil, opAt_none_of_ends hs]
    rfl
  | st :: rest, lhs, hsteps, hr, htop, hhead => by
    have hst := hsteps st List.mem_cons_self
    have hrest : ∀ st' ∈ rest, st'.Fits interp := fun st' h =>
      hsteps st' (List.mem_cons_of_mem st h)
    have hle : st.op.level ≤ l := hhead st rfl
    have hk : ((s.along (rest.flatMap OpStep.tokens)).along st.tokens).kind = st.op.token :=
      hst.spells
    rw [List.flatMap_cons, TokenStream.along_append]
    rcases Nat.lt_or_eq_of_le hle with hlt | heq
    · -- an operator of a looser level ends this level
      have hb : OpStep.binds l st = false := by simp [OpStep.binds]; omega
      refine ⟨lhs, hr, htop, by simp [hb], by simp [hb], ?_⟩
      rw [binaryRest, hk, opAt_token_of_ne (Nat.ne_of_lt hlt), List.dropWhile_cons,
        if_neg (by simp [hb]), List.flatMap_cons, TokenStream.along_append]
      rfl
    · -- an operator of this level: its right side is what the levels above read after it
      have hb : OpStep.binds l st = true := by simp [OpStep.binds, heq]
      obtain ⟨hc₁, hc₂⟩ := hs.continues rest hrest
      obtain ⟨h₁, e₁⟩ := advance_along (s := s.along (rest.flatMap OpStep.tokens)) st.opTok
        (st.breaks ++ st.operand)
      obtain ⟨h₀, e₀⟩ := Taken.eq_ok (hst.operand _ hc₁ hc₂)
      obtain ⟨h₂, e₂⟩ := newlines_along (callChain_kind e₀).1 st.breaks hst.breaks
      obtain ⟨t₂, hr₂, htop₂, hx₂, ho₂, e₃⟩ :=
        hbin st.operand st.tree rest s hst.operand hrest hs
      obtain ⟨h₃, e₃⟩ := Taken.eq_ok e₃
      -- the tree so far becomes the operator's left side
      have hnode : (OpTree.node st.op lhs t₂).Ranked := ⟨heq ▸ htop, by omega, hr, hr₂⟩
      obtain ⟨t, hr', htop', hx', ho', e₄⟩ :=
        binaryRest_reads hbin hs (rest.dropWhile (OpStep.binds (l + 1))) (.node st.op lhs t₂)
          (fun st' h => hrest st' ((List.dropWhile_sublist _).subset h)) hnode
          (by simp [OpTree.top, heq]) (OpStep.head_dropWhile_binds rest)
      have htake := takeWhile_of_imp (OpStep.binds_of_succ (l := l)) rest
      have hdrop := dropWhile_of_imp (OpStep.binds_of_succ (l := l)) rest
      refine ⟨t, hr', htop', ?_, ?_, ?_⟩
      · rw [hx', List.takeWhile_cons, if_pos hb, htake]
        simp [OpTree.operands, hx₂]
      · rw [ho', List.takeWhile_cons, if_pos hb, htake]
        simp [OpTree.ops, ho₂]
      · rw [List.dropWhile_cons, if_pos hb, hdrop]
        have hop : opAt l st.op.token = some st.op := heq ▸ opAt_token st.op
        obtain ⟨h₄, e₄⟩ := Parsed.eq_ok e₄
        simp only [OpTree.toExpr] at e₄
        rw [binaryRest, hk, hop]
        simp only [OpStep.tokens] at e₁ ⊢
        simp only [e₁, bind, Except.bind, TokenStream.along_append, e₂, e₃, e₄]
        rfl
termination_by rest => rest.length
decreasing_by
  exact Nat.lt_succ_of_le (List.dropWhile_sublist _).length_le

/-- A level below the operands reads the levels above it, then its own operators. -/
theorem binaryReads_of_succ {l : Nat} (hl : l < 4) (hbin : BinaryReads interp (l + 1)) :
    BinaryReads interp l := by
  intro x₀ e₀ steps s h₀ hsteps hs
  obtain ⟨t₁, hr₁, htop₁, hx₁, ho₁, e₁⟩ := hbin x₀ e₀ steps s h₀ hsteps hs
  obtain ⟨h₁, e₁⟩ := Taken.eq_ok e₁
  obtain ⟨t, hr, htop, hx, ho, e₂⟩ :=
    binaryRest_reads hbin hs (steps.dropWhile (OpStep.binds (l + 1))) t₁
      (fun st h => hsteps st ((List.dropWhile_sublist _).subset h)) hr₁ (by omega)
      (OpStep.head_dropWhile_binds steps)
  obtain ⟨h₂, e₂⟩ := Parsed.eq_ok e₂
  have htake := takeWhile_of_imp (OpStep.binds_of_succ (l := l)) steps
  have hdrop := dropWhile_of_imp (OpStep.binds_of_succ (l := l)) steps
  refine ⟨t, hr, htop, ?_, ?_, ?_⟩
  · rw [hx, hx₁, htake]
    simp
  · rw [ho, ho₁, htake]
    simp
  · rw [binary, if_pos hl, hdrop]
    simp only [e₁, bind, Except.bind, e₂]
    rfl

/-- Every level, from the operands down to the loosest, reads its longest prefix. -/
theorem binaryReads : ∀ k l : Nat, l + k = 4 → BinaryReads interp l
  | 0, l, h => by
    obtain rfl : l = 4 := by omega
    exact binaryReads_four
  | k + 1, l, h => binaryReads_of_succ (by omega) (binaryReads k (l + 1) (by omega))

/-- Binary operators parse by precedence and left associativity. Read from a sequence
`x₀ op₁ x₁ … opₙ xₙ` of postfix operands and operators, with newlines allowed after each
operator and ended by a token that is no operator (a newline, whatever follows it), `binary`
at the loosest level gives the one ranked tree over those operands and operators, and stops at
the end; a `#` before the sequence applies to that whole tree. -/
theorem binary_precedence (x₀ : List Token) (e₀ : Expr) (steps : List OpStep)
    (s : TokenStream) (h₀ : Operand interp x₀ e₀) (hsteps : ∀ st ∈ steps, st.Fits interp)
    (hs : Ends s) :
    ∃ t : OpTree, t.Ranked ∧ t.operands = e₀ :: steps.map (·.tree) ∧
      t.ops = steps.map (·.op) ∧
      (∀ t' : OpTree, t'.Ranked → t'.operands = t.operands → t'.ops = t.ops → t' = t) ∧
      (binary interp 0 (s.along (x₀ ++ steps.flatMap OpStep.tokens))).map Taken.out =
        .ok (t.toExpr, s) ∧
      ∀ hashTok : Token, hashTok.kind = .hash →
        (expr interp (s.along (hashTok :: (x₀ ++ steps.flatMap OpStep.tokens)))).map Taken.out =
          .ok (.exec ⟨0, Span.hull hashTok.span t.toExpr.span⟩ t.toExpr, s) := by
  obtain ⟨t, hr, -, hx, ho, e⟩ := binaryReads 4 0 rfl x₀ e₀ steps s h₀ hsteps hs
  -- every operator is of level `0` or above, so the whole sequence is read
  have htake : steps.takeWhile (OpStep.binds 0) = steps :=
    List.takeWhile_eq_self_iff.2 fun st _ => by simp [OpStep.binds]
  have hdrop : steps.dropWhile (OpStep.binds 0) = [] :=
    List.dropWhile_eq_nil_iff.2 fun st _ => by simp [OpStep.binds]
  rw [htake] at hx ho
  rw [hdrop, List.flatMap_nil, TokenStream.along_nil] at e
  refine ⟨t, hr, hx, ho, fun t' hr' hx' ho' => hr'.unique hr hx' ho', ?_, fun hashTok hk => ?_⟩
  · rw [TokenStream.along_append]
    exact e
  · -- the operand after `#` starts no `#` of its own, so the rest is one binary expression
    obtain ⟨hc₁, hc₂⟩ := hs.continues steps hsteps
    obtain ⟨h₀', e₀'⟩ := Taken.eq_ok (h₀ _ hc₁ hc₂)
    have hnh : (s.along (x₀ ++ steps.flatMap OpStep.tokens)).kind ≠ .hash := by
      rw [TokenStream.along_append]
      exact (callChain_kind e₀').2
    obtain ⟨h₁, e₁⟩ := advance_along (s := s) hashTok (x₀ ++ steps.flatMap OpStep.tokens)
    rw [← TokenStream.along_append] at e
    obtain ⟨h₂, e₂⟩ := Taken.eq_ok e
    have hinner : expr interp (s.along (x₀ ++ steps.flatMap OpStep.tokens)) =
        binary interp 0 (s.along (x₀ ++ steps.flatMap OpStep.tokens)) := by
      rw [expr, if_neg hnh]
    rw [expr, if_pos (show (s.along (hashTok :: _)).kind = .hash from hk), want,
      if_pos (show (s.along (hashTok :: _)).kind = .hash from hk)]
    simp only [e₁, bind, Except.bind, hinner, e₂]
    rfl

/-- `a + b *`, a newline, `c`. -/
def sumTimesSteps : List OpStep :=
  [⟨.add, ⟨.plus, "+", default⟩, [], [⟨.ident, "b", default⟩], .ident ⟨0, default⟩ "b"⟩,
   ⟨.mul, ⟨.star, "*", default⟩, [⟨.newline, "\n", default⟩], [⟨.ident, "c", default⟩],
     .ident ⟨0, default⟩ "c"⟩]

/-- The newline before `== d` that ends `a + b * c`. -/
def sumTimesEnd : TokenStream :=
  ⟨⟨.newline, "\n", default⟩, [⟨.eq, "==", default⟩, ⟨.ident, "d", default⟩, ⟨.eof, "", default⟩],
    none⟩

/-- `a + b *`, a newline, `c` reads as `a + (b * c)`, and the newline before `==` ends it. -/
theorem binary_precedence_sumTimes :
    Operand readInterpolation [⟨.ident, "a", default⟩] (.ident ⟨0, default⟩ "a") ∧
      (∀ st ∈ sumTimesSteps, st.Fits readInterpolation) ∧ Ends sumTimesEnd ∧
      (binary readInterpolation 0
          (sumTimesEnd.along ([⟨.ident, "a", default⟩] ++ sumTimesSteps.flatMap OpStep.tokens))).map
          Taken.out =
        .ok ((OpTree.node .add (.leaf (.ident ⟨0, default⟩ "a"))
          (.node .mul (.leaf (.ident ⟨0, default⟩ "b")) (.leaf (.ident ⟨0, default⟩ "c")))).toExpr,
          sumTimesEnd) := by
  have h₀ : Operand readInterpolation [⟨.ident, "a", default⟩] (.ident ⟨0, default⟩ "a") :=
    Operand.ident "a" default
  have hsteps : ∀ st ∈ sumTimesSteps, st.Fits readInterpolation := by
    intro st hst
    simp only [sumTimesSteps, List.mem_cons, List.not_mem_nil, or_false] at hst
    rcases hst with rfl | rfl
    · exact ⟨rfl, by simp, Operand.ident "b" default⟩
    · exact ⟨rfl, by simp, Operand.ident "c" default⟩
  have hs : Ends sumTimesEnd :=
    ⟨fun op => (BinOp.token_ne_newline op).symm, by decide, by decide⟩
  obtain ⟨t, hr, hx, ho, -, e, -⟩ := binary_precedence _ _ _ _ h₀ hsteps hs
  -- the product under the sum is the one ranked tree over `a + b * c`
  have ht : OpTree.node .add (.leaf (.ident ⟨0, default⟩ "a"))
      (.node .mul (.leaf (.ident ⟨0, default⟩ "b")) (.leaf (.ident ⟨0, default⟩ "c"))) = t :=
    OpTree.Ranked.unique (by decide) hr (by rw [hx]; rfl) (by rw [ho]; rfl)
  exact ⟨h₀, hsteps, hs, ht ▸ e⟩

end Sequences

end Grammar

end Abla
