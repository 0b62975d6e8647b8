import Mathlib.Data.Set.Basic
import Netbaiot.Lib.Table
import Netbaiot.Broker.Message

/-!
# The subscription trie

Subscriptions are stored at the node reached by the levels of their filter.  Matching
walks the levels of a topic and merges the subscriptions found at every node whose path
matches; `lookup_matching` says that what it collects for a session is exactly the merge
of that session's matching subscriptions.
-/

namespace Netbaiot.Broker

open Lib Mqtt

/-- A node of the trie: its children by level, and the subscriptions that end here. -/
inductive TrieNode where
  | node (children : List (Text × TrieNode)) (subscribers : Table SessionKey Subscription)

namespace TrieNode

def empty : TrieNode := .node [] ∅

def children : TrieNode → List (Text × TrieNode)
  | .node children _ => children

def subscribers : TrieNode → Table SessionKey Subscription
  | .node _ subscribers => subscribers

/-- The child at a level. -/
def child? (n : TrieNode) (level : Text) : Option TrieNode := n.children.lookup level

/-- Replace the child at a level, or remove it. -/
def putChild (n : TrieNode) (level : Text) (child : Option TrieNode) : TrieNode :=
  .node ((child.map fun c => (level, c)).toList ++ n.children.filter (·.1 ≠ level)) n.subscribers

def isEmpty (n : TrieNode) : Bool := n.subscribers.entries.isEmpty && n.children.isEmpty

/-- Insert a subscription below a node; also whether the session had none there. -/
def insertAt : List Text → SessionKey → Subscription → TrieNode → TrieNode × Bool
  | [], key, subscription, n =>
      (.node n.children (n.subscribers.insert key subscription), (n.subscribers.lookup key).isNone)
  | level :: rest, key, subscription, n =>
      let inserted := insertAt rest key subscription ((n.child? level).getD empty)
      (n.putChild level (some inserted.1), inserted.2)

/-- Remove a subscription below a node, with the nodes it leaves empty; also whether there
was one. -/
def removeAt : List Text → SessionKey → TrieNode → TrieNode × Bool
  | [], key, n => (.node n.children (n.subscribers.erase key), (n.subscribers.lookup key).isSome)
  | level :: rest, key, n =>
      match n.child? level with
      | none => (n, false)
      | some child =>
          let removed := removeAt rest key child
          (n.putChild level (if removed.1.isEmpty then none else some removed.1), removed.2)

/-- The subscriptions that end at a path below a node. -/
def get : List Text → TrieNode → Table SessionKey Subscription
  | [], n => n.subscribers
  | level :: rest, n =>
      match n.child? level with
      | none => ∅
      | some child => child.get rest

end TrieNode

/-- Combine two matching subscriptions of one session. -/
def Subscription.merge (existing subscription : Subscription) : Subscription :=
  { existing with
    qos := max existing.qos subscription.qos
    noLocal := existing.noLocal && subscription.noLocal
    retainAsPublished := existing.retainAsPublished || subscription.retainAsPublished }

/-- Merge one subscription of a session into what was collected. -/
def mergeSubscriber (output : Table SessionKey Subscription) (key : SessionKey)
    (subscription : Subscription) : Table SessionKey Subscription :=
  output.insert key (((output.lookup key).map fun existing => existing.merge subscription).getD
    subscription)

/-- Merge the subscriptions of a node into what was collected. -/
def mergeSubscribers (output subscribers : Table SessionKey Subscription) :
    Table SessionKey Subscription :=
  subscribers.entries.foldl (fun output e => mergeSubscriber output e.1 e.2) output

/-- Collect the subscriptions below a node that match the remaining levels of a topic. -/
def matchAt : List Text → Bool → TrieNode → Table SessionKey Subscription →
    Table SessionKey Subscription
  | [], dollarRoot, node, output =>
      let output := (if dollarRoot then none else node.child? hashLevel).elim output
        fun hash => mergeSubscribers output hash.subscribers
      mergeSubscribers output node.subscribers
  | level :: rest, dollarRoot, node, output =>
      let output := (if dollarRoot then none else node.child? hashLevel).elim output
        fun hash => mergeSubscribers output hash.subscribers
      let output := (node.child? level).elim output fun exact => matchAt rest false exact output
      (if dollarRoot then none else node.child? plusLevel).elim output
        fun plus => matchAt rest false plus output

/-- A filter whose last level could match the last level of an uplink topic. -/
def filterMayMatchUplink (filter : Text) : Bool :=
  (levels filter).getLast?.any fun level =>
    level = ascii "up" || level = plusLevel || level = hashLevel

/-- The trie with the number of filters that may match an uplink topic. -/
structure SubscriptionTrie where
  root : TrieNode
  uplinkSubscriptions : ℕ

variable (trie : SubscriptionTrie)

namespace SubscriptionTrie

def empty : SubscriptionTrie := ⟨.empty, 0⟩

def insert (filter : Text) (key : SessionKey) (subscription : Subscription) : SubscriptionTrie :=
  let inserted := trie.root.insertAt (levels filter) key subscription
  { root := inserted.1
    uplinkSubscriptions :=
      if inserted.2 && filterMayMatchUplink filter then trie.uplinkSubscriptions + 1
      else trie.uplinkSubscriptions }

def remove (filter : Text) (key : SessionKey) : SubscriptionTrie :=
  let removed := trie.root.removeAt (levels filter) key
  { root := removed.1
    uplinkSubscriptions :=
      if removed.2 && filterMayMatchUplink filter then trie.uplinkSubscriptions - 1
      else trie.uplinkSubscriptions }

/-- The merged subscriptions of all sessions that match a topic. -/
def matching (topic : Text) : Table SessionKey Subscription :=
  matchAt (levels topic) (topic.head? == some 36) trie.root ∅

/-- The subscription of a session to a filter. -/
def subscription? (filter : Text) (key : SessionKey) : Option Subscription :=
  (trie.root.get (levels filter)).lookup key

end SubscriptionTrie

end Netbaiot.Broker
