import Anywhere.Config
import Anywhere.Lib.PrefixMap
import Anywhere.Lib.Text

/-!
# Anywhere — the tries of the router

`TrieNode` branches on the labels of a domain, from the top-level one inward;
`CIDRTrie` branches on the bits of an address. Both are `Branching` trees: an
insertion follows its path and sets the action at the end, a lookup follows a
path and keeps the deepest action.
-/

namespace Anywhere.Router

open Lib PrefixMap List

abbrev Uuid := Bytes

inductive RouteAction where
  | direct
  | reject
  | proxy (configId : Uuid)
  deriving DecidableEq

-- ----
-- Labels

/-- `DomainRouter.TrieNode`. -/
inductive TrieNode where
  | mk (children : List (Text × TrieNode)) (action : Option RouteAction)

namespace TrieNode

def children : TrieNode → List (Text × TrieNode)
  | mk children _ => children

def action : TrieNode → Option RouteAction
  | mk _ action => action

/-- `children[label]`. -/
def child (node : TrieNode) (label : Text) : Option TrieNode :=
  node.children.lookup label

/-- `children[label] = child`. -/
def setChild (node : TrieNode) (label : Text) (child : TrieNode) : TrieNode :=
  mk ((label, child) :: node.children.filter (fun c => c.1 != label)) node.action

theorem child_setChild (node : TrieNode) (label : Text) (child : TrieNode) (label' : Text) :
    (node.setChild label child).child label' =
      if label' = label then some child else node.child label' := by
  show List.lookup label' ((label, child) :: _) = _
  by_cases h : label' = label
  · subst h
    simp
  · rw [if_neg h, lookup_cons, beq_false_of_ne h]
    show List.lookup label' (List.filter (fun c => c.1 != label) node.children) = _
    unfold TrieNode.child
    induction node.children with
    | nil => rfl
    | cons c cs ih =>
      by_cases hc : c.1 = label
      · rw [filter_cons_of_neg (by simp [hc]), ih, lookup_cons,
          beq_false_of_ne (fun he => h (he.trans hc))]
      · rw [filter_cons_of_pos (by simpa using hc), lookup_cons, lookup_cons, ih]

/-- The label trie; a new `TrieNode()` has no child and no action. -/
def branching : Branching TrieNode Text RouteAction where
  empty := mk [] none
  next := child
  setNext := setChild
  value := action
  setValue node action := mk node.children (some action)
  next_empty _ := rfl
  value_empty := rfl
  next_setNext := child_setChild
  value_setNext _ _ _ := rfl
  next_setValue _ _ _ := rfl
  value_setValue _ _ := rfl

end TrieNode

-- ----
-- Bits

/-- `CIDRTrie.Node`. -/
inductive CIDRTrie where
  | mk (left right : Option CIDRTrie) (action : Option RouteAction)

namespace CIDRTrie

def action : CIDRTrie → Option RouteAction
  | mk _ _ action => action

/-- `if (bit == 0) node.left else node.right`. -/
def next : CIDRTrie → Bool → Option CIDRTrie
  | mk left _ _, false => left
  | mk _ right _, true => right

def setNext : CIDRTrie → Bool → CIDRTrie → CIDRTrie
  | mk _ right action, false, node => mk (some node) right action
  | mk left _ action, true, node => mk left (some node) action

def setAction : CIDRTrie → RouteAction → CIDRTrie
  | mk left right _, action => mk left right (some action)

/-- The bit trie; a new `Node()` has no child and no action. -/
def branching : Branching CIDRTrie Bool RouteAction where
  empty := mk none none none
  next := next
  setNext := setNext
  value := action
  setValue := setAction
  next_empty bit := by cases bit <;> rfl
  value_empty := rfl
  next_setNext node bit child bit' := by
    obtain ⟨left, right, action⟩ := node
    cases bit <;> cases bit' <;> rfl
  value_setNext node bit child := by
    obtain ⟨left, right, action⟩ := node
    cases bit <;> rfl
  next_setValue node action bit := by
    obtain ⟨left, right, own⟩ := node
    cases bit <;> rfl
  value_setValue node action := by
    obtain ⟨left, right, own⟩ := node
    rfl

end CIDRTrie

end Anywhere.Router
