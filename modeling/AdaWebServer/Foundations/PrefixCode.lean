import Mathlib.Data.List.Induction
import Mathlib.Tactic.Ring

/-!
# Prefix codes as binary trees

A binary tree whose leaves carry symbols is a prefix code: a codeword is the path to a leaf.  The
scanner reads one bit at a time, remembers the bits read since the last leaf, and emits a symbol
whenever it reaches a leaf.  It inverts the concatenation of codewords, never fails on a tree
without missing children, and emits no more symbols than the least depth of the leaves allows.
-/

namespace AdaWebServer
namespace PrefixCode

/-- A binary decoding tree, with `null` for a missing child. -/
inductive CodeTree (α : Type*) where
  | null
  | leaf (symbol : α)
  | node (zero one : CodeTree α)
  deriving DecidableEq, Repr

namespace CodeTree

variable {α : Type*}

/-- Child of a node selected by one bit. -/
def child : CodeTree α → Bool → CodeTree α
  | node _ one, true => one
  | node zero _, false => zero
  | _, _ => null

/-- Subtree reached along a path. -/
def follow : CodeTree α → List Bool → CodeTree α
  | tree, [] => tree
  | tree, bit :: bits => (tree.child bit).follow bits

@[simp]
theorem follow_nil (tree : CodeTree α) : tree.follow [] = tree := by
  cases tree <;> rfl

@[simp]
theorem follow_cons (tree : CodeTree α) (bit : Bool) (bits : List Bool) :
    tree.follow (bit :: bits) = (tree.child bit).follow bits := by
  cases tree <;> rfl

theorem follow_append (tree : CodeTree α) (left right : List Bool) :
    tree.follow (left ++ right) = (tree.follow left).follow right := by
  induction left generalizing tree with
  | nil => simp
  | cons bit bits ih => simp [ih]

@[simp]
theorem follow_null (bits : List Bool) : (null : CodeTree α).follow bits = null := by
  induction bits with
  | nil => rfl
  | cons bit bits ih => simpa [child] using ih

theorem follow_leaf_cons (symbol : α) (bit : Bool) (bits : List Bool) :
    (leaf symbol).follow (bit :: bits) = null := by
  simp [child]

/-! ## Scanning -/

/-- Progress of a scan: the emitted symbols and the bits read since the last of them. -/
structure Progress (α : Type*) where
  /-- Symbols emitted so far. -/
  symbols : List α
  /-- Bits of the codeword being read. -/
  pending : List Bool

/-- Read one bit. -/
def advance (tree : CodeTree α) (progress : Progress α) (bit : Bool) : Option (Progress α) :=
  match tree.follow (progress.pending ++ [bit]) with
  | null => none
  | leaf symbol => some ⟨progress.symbols ++ [symbol], []⟩
  | node _ _ => some ⟨progress.symbols, progress.pending ++ [bit]⟩

/-- Read a bit string. -/
def scan (tree : CodeTree α) : Progress α → List Bool → Option (Progress α)
  | progress, [] => some progress
  | progress, bit :: bits => tree.advance progress bit >>= fun next => tree.scan next bits

theorem scan_append (tree : CodeTree α) (progress : Progress α) (left right : List Bool) :
    tree.scan progress (left ++ right) =
      tree.scan progress left >>= fun next => tree.scan next right := by
  induction left generalizing progress with
  | nil => rfl
  | cons bit bits ih =>
      simp only [List.cons_append, scan, ih]
      cases tree.advance progress bit <;> rfl

/-- The rest of a codeword emits its symbol. -/
theorem scan_rest_of_codeword {tree : CodeTree α} {front back : List Bool} {symbol : α}
    (symbols : List α) (path : tree.follow (front ++ back) = leaf symbol) (unfinished : back ≠ []) :
    tree.scan ⟨symbols, front⟩ back = some ⟨symbols ++ [symbol], []⟩ := by
  induction back generalizing front with
  | nil => contradiction
  | cons bit bits ih =>
      have path' : tree.follow ((front ++ [bit]) ++ bits) = leaf symbol := by simpa using path
      cases bits with
      | nil =>
          rw [List.append_nil] at path'
          simp [scan, advance, path']
      | cons next bits =>
          have inner : ∃ zero one, tree.follow (front ++ [bit]) = node zero one := by
            rw [follow_append] at path'
            cases subtree : tree.follow (front ++ [bit]) with
            | null =>
                rw [subtree, follow_null] at path'
                contradiction
            | leaf other => simp [subtree, child] at path'
            | node zero one => exact ⟨zero, one, rfl⟩
          obtain ⟨zero, one, subtree⟩ := inner
          simp only [scan, advance, subtree, Option.bind_eq_bind, Option.bind_some]
          exact ih path' (by simp)

/-- A concatenation of codewords is scanned back into its symbols. -/
theorem scan_codewords {tree : CodeTree α} {code : α → List Bool}
    (paths : ∀ symbol, tree.follow (code symbol) = leaf symbol)
    (nonempty : ∀ symbol, code symbol ≠ []) (symbols message : List α) :
    tree.scan ⟨symbols, []⟩ (message.flatMap code) = some ⟨symbols ++ message, []⟩ := by
  induction message generalizing symbols with
  | nil => simp [scan]
  | cons symbol message ih =>
      have first : tree.scan ⟨symbols, []⟩ (code symbol) = some ⟨symbols ++ [symbol], []⟩ :=
        scan_rest_of_codeword symbols (by simpa using paths symbol) (nonempty symbol)
      rw [List.flatMap_cons, scan_append, first]
      simpa using ih (symbols ++ [symbol])

/-- Bits that stay above the leaves are only remembered. -/
theorem scan_inner {tree : CodeTree α} {bits : List Bool} (symbols : List α)
    (inner : ∀ front, front ≠ [] → front <+: bits → ∃ zero one, tree.follow front = node zero one) :
    tree.scan ⟨symbols, []⟩ bits = some ⟨symbols, bits⟩ := by
  induction bits using List.reverseRecOn with
  | nil => rfl
  | append_singleton bits bit ih =>
      have earlier : tree.scan ⟨symbols, []⟩ bits = some ⟨symbols, bits⟩ :=
        ih fun front nonempty fronted => inner front nonempty (fronted.trans (bits.prefix_append _))
      obtain ⟨zero, one, subtree⟩ := inner (bits ++ [bit]) (by simp) List.prefix_rfl
      rw [scan_append, earlier]
      simp [scan, advance, subtree]

theorem advance_symbols_extend {tree : CodeTree α} {progress next : Progress α} {bit : Bool}
    (step : tree.advance progress bit = some next) : progress.symbols <+: next.symbols := by
  unfold advance at step
  split at step
  · simp at step
  · obtain rfl := Option.some.inj step
    exact List.prefix_append _ _
  · obtain rfl := Option.some.inj step
    exact List.prefix_rfl

theorem scan_symbols_extend {tree : CodeTree α} {progress final : Progress α} {bits : List Bool}
    (run : tree.scan progress bits = some final) : progress.symbols <+: final.symbols := by
  induction bits generalizing progress with
  | nil =>
      obtain rfl := Option.some.inj run
      exact List.prefix_rfl
  | cons bit bits ih =>
      obtain ⟨next, step, run⟩ := Option.bind_eq_some_iff.mp run
      exact (advance_symbols_extend step).trans (ih run)

/-- A scan that emits nothing remembers every bit. -/
theorem scan_pending_of_no_symbol {tree : CodeTree α} {front bits : List Bool}
    {final : Progress α} (run : tree.scan ⟨[], front⟩ bits = some final)
    (silent : final.symbols = []) : final.pending = front ++ bits := by
  induction bits generalizing front with
  | nil =>
      obtain rfl := Option.some.inj run
      simp
  | cons bit bits ih =>
      obtain ⟨next, step, run⟩ := Option.bind_eq_some_iff.mp run
      have none_yet : next.symbols = [] := by
        have grown := scan_symbols_extend run
        rwa [silent, List.prefix_nil] at grown
      have remembered : next = ⟨[], front ++ [bit]⟩ := by
        unfold advance at step
        split at step
        · simp at step
        · obtain rfl := Option.some.inj step
          simp at none_yet
        · exact (Option.some.inj step).symm
      rw [remembered] at run
      simpa using ih run

/-! ## Codewords -/

/-- What has been scanned are codewords with their symbols, and the bits behind them. -/
theorem words_of_scan {tree : CodeTree α} {symbols : List α} {front bits : List Bool}
    {final : Progress α} (run : tree.scan ⟨symbols, front⟩ bits = some final) :
    ∃ words : List (List Bool × α), front ++ bits = words.flatMap Prod.fst ++ final.pending ∧
      final.symbols = symbols ++ words.map Prod.snd ∧
      ∀ word ∈ words, tree.follow word.1 = leaf word.2 := by
  induction bits generalizing symbols front with
  | nil =>
      obtain rfl := Option.some.inj run
      exact ⟨[], List.append_nil front, (List.append_nil symbols).symm, nofun⟩
  | cons bit bits ih =>
      obtain ⟨next, step, run⟩ := Option.bind_eq_some_iff.mp run
      unfold advance at step
      split at step
      · cases step
      · next symbol reached =>
          obtain rfl := Option.some.inj step
          obtain ⟨words, bits_eq, symbols_eq, codewords⟩ := ih run
          refine ⟨(front ++ [bit], symbol) :: words, ?_, ?_, List.forall_mem_cons.mpr
            ⟨reached, codewords⟩⟩
          · rw [List.flatMap_cons, List.append_assoc, ← bits_eq, List.append_assoc]
            rfl
          · rw [symbols_eq, List.map_cons, List.append_assoc]
            rfl
      · obtain rfl := Option.some.inj step
        obtain ⟨words, bits_eq, rest⟩ := ih run
        refine ⟨words, ?_, rest⟩
        rw [← bits_eq, List.append_assoc]
        rfl

/-- Of two codewords that start the same bit string neither is longer. -/
theorem codeword_unique {tree : CodeTree α} {path path' rest rest' : List Bool} {symbol symbol' : α}
    (reached : tree.follow path = leaf symbol) (reached' : tree.follow path' = leaf symbol')
    (same : path ++ rest = path' ++ rest') : path = path' ∧ rest = rest' := by
  have longer : ∀ {front back : List Bool} {first second : α}, tree.follow front = leaf first →
      tree.follow (front ++ back) = leaf second → back = [] := by
    intro front back first second at_front at_back
    cases back with
    | nil => rfl
    | cons bit bits =>
        rw [follow_append, at_front, follow_leaf_cons] at at_back
        cases at_back
  obtain ⟨more, path_eq, rest_eq⟩ | ⟨more, path_eq, rest_eq⟩ := List.append_eq_append_iff.mp same
  · rw [path_eq] at reached'
    obtain rfl := longer reached reached'
    rw [List.append_nil] at path_eq
    exact ⟨path_eq.symm, rest_eq⟩
  · rw [path_eq] at reached
    obtain rfl := longer reached' reached
    rw [List.append_nil] at path_eq
    exact ⟨path_eq, rest_eq.symm⟩

/-- Bits that lead to a node do not start with a codeword. -/
theorem not_codeword_of_node {tree : CodeTree α} {path rest : List Bool} {symbol : α}
    {zero one : CodeTree α} (reached : tree.follow path = leaf symbol)
    (inner : tree.follow (path ++ rest) = node zero one) : False := by
  cases rest with
  | nil =>
      rw [List.append_nil, reached] at inner
      cases inner
  | cons bit bits =>
      rw [follow_append, reached, follow_leaf_cons] at inner
      cases inner

/-! ## Trees without missing children -/

/-- The tree is a node. -/
def Inner : CodeTree α → Bool
  | node _ _ => true
  | _ => false

theorem inner_iff {tree : CodeTree α} : tree.Inner = true ↔ ∃ zero one, tree = node zero one := by
  cases tree <;> simp [Inner]

/-- Every node has both children. -/
def Complete : CodeTree α → Bool
  | null => false
  | leaf _ => true
  | node zero one => zero.Complete && one.Complete

/-- Below a node of a complete tree there is always a child. -/
theorem complete_follow {tree : CodeTree α} (complete : tree.Complete) {path : List Bool}
    {zero one : CodeTree α} (subtree : tree.follow path = node zero one) :
    zero.Complete ∧ one.Complete := by
  induction path generalizing tree with
  | nil =>
      rw [follow_nil] at subtree
      simpa [subtree, Complete] using complete
  | cons bit bits ih =>
      cases tree with
      | null => simp [child] at subtree
      | leaf symbol => simp [child] at subtree
      | node left right =>
          simp only [Complete, Bool.and_eq_true] at complete
          cases bit
          · exact ih complete.1 (by simpa [child] using subtree)
          · exact ih complete.2 (by simpa [child] using subtree)

/-- The pending bits of a progress lead to a node. -/
def AtNode (tree : CodeTree α) (progress : Progress α) : Prop :=
  ∃ zero one, tree.follow progress.pending = node zero one

/-- A complete tree reads every bit. -/
theorem advance_of_complete {tree : CodeTree α} (complete : tree.Complete)
    (root : ∃ zero one, tree = node zero one) {progress : Progress α}
    (atNode : tree.AtNode progress) (bit : Bool) :
    ∃ next, tree.advance progress bit = some next ∧ tree.AtNode next := by
  obtain ⟨zero, one, subtree⟩ := atNode
  have children := complete_follow complete subtree
  have stepped : tree.follow (progress.pending ++ [bit]) = (node zero one).child bit := by
    rw [follow_append, subtree]
    simp
  have present : (tree.follow (progress.pending ++ [bit])).Complete := by
    rw [stepped]
    cases bit
    · exact children.1
    · exact children.2
  unfold advance
  cases reached : tree.follow (progress.pending ++ [bit]) with
  | null => simp [reached, Complete] at present
  | leaf symbol => exact ⟨_, rfl, by simpa [AtNode] using root⟩
  | node left right => exact ⟨_, rfl, left, right, reached⟩

/-- A complete tree reads every bit string. -/
theorem scan_of_complete {tree : CodeTree α} (complete : tree.Complete)
    (root : ∃ zero one, tree = node zero one) {progress : Progress α}
    (atNode : tree.AtNode progress) (bits : List Bool) :
    ∃ final, tree.scan progress bits = some final ∧ tree.AtNode final := by
  induction bits generalizing progress with
  | nil => exact ⟨progress, rfl, atNode⟩
  | cons bit bits ih =>
      obtain ⟨next, step, atNext⟩ := advance_of_complete complete root atNode bit
      obtain ⟨final, run, atFinal⟩ := ih atNext
      exact ⟨final, by simp [scan, step, run], atFinal⟩

/-! ## Depth of the leaves -/

/-- Every leaf is at the given depth or deeper. -/
def LeavesBelow : Nat → CodeTree α → Bool
  | 0, _ => true
  | _ + 1, null => true
  | _ + 1, leaf _ => false
  | depth + 1, node zero one => zero.LeavesBelow depth && one.LeavesBelow depth

theorem LeavesBelow.le_length {depth : Nat} {tree : CodeTree α} (deep : tree.LeavesBelow depth)
    {path : List Bool} {symbol : α} (reached : tree.follow path = leaf symbol) :
    depth ≤ path.length := by
  induction path generalizing depth tree with
  | nil =>
      rw [follow_nil] at reached
      subst reached
      cases depth with
      | zero => simp
      | succ depth => simp [LeavesBelow] at deep
  | cons bit bits ih =>
      cases depth with
      | zero => simp
      | succ depth =>
          cases tree with
          | null => simp [child] at reached
          | leaf other => simp [child] at reached
          | node zero one =>
              simp only [LeavesBelow, Bool.and_eq_true] at deep
              have below : depth ≤ bits.length := by
                cases bit
                · exact ih deep.1 (by simpa [child] using reached)
                · exact ih deep.2 (by simpa [child] using reached)
              simpa using below

/-- Each emitted symbol has consumed as many bits as the leaves are deep. -/
theorem advance_consumes {depth : Nat} {tree : CodeTree α} (deep : tree.LeavesBelow depth)
    {progress next : Progress α} {bit : Bool} (step : tree.advance progress bit = some next) :
    depth * next.symbols.length + next.pending.length ≤
      depth * progress.symbols.length + progress.pending.length + 1 := by
  unfold advance at step
  split at step
  · simp at step
  · next symbol reached =>
      obtain rfl := Option.some.inj step
      have enough := LeavesBelow.le_length deep reached
      simp only [List.length_append, List.length_singleton, List.length_nil] at enough ⊢
      rw [Nat.mul_add]
      omega
  · obtain rfl := Option.some.inj step
    simp only [List.length_append, List.length_singleton]
    omega

end CodeTree
end PrefixCode
end AdaWebServer
