import CodeAtlas.Element.Basic

/-!
# Paths of relation edges

A path is built from its end towards its start: each new edge must lead to the element that the
edge before it leaves from, so that the newest edge is the first step of the walk. Edges are kept
in the order in which they were put on. A path does not check that its edges are recorded facts.
Nothing here depends on what edges are beyond their two ends and a kind that can be compared; they
are fixed to the tuples of relations, the one kind of edge that there is.

## Main definitions

* `Edge`, `Path`, with `Path.push`.
* `Path.top`, `Path.first`, `Path.last`: elements at distinguished places.
* `Path.nodes`, `Path.orderedNodes`, `Path.tailNodes`, `Path.elements`: its elements as lists.
* `Path.sameKinds`: whether two paths follow the same relations.
-/
namespace CodeAtlas

/-- An element that is related to another. -/
structure Edge where
  source : Element
  relation : Relation
  target : Element
deriving DecidableEq

/-- The written form of an edge. -/
def Edge.text (e : Edge) : String :=
  e.source.id ++ " -" ++ e.relation.name ++ "-> " ++ e.target.id

/-- A path, with its oldest edge in front. -/
structure Path where
  edges : List Edge := []
deriving DecidableEq

namespace Path

/-- The number of edges. -/
def length (p : Path) : Nat := p.edges.length

/-- The element that the newest edge leaves from. -/
def top (p : Path) : Except Fault Element :=
  match p.edges.getLast? with
  | some e => .ok e.source
  | none => .error .emptyPath

/-- The element that the oldest edge leaves from. -/
def first (p : Path) : Except Fault Element :=
  match p.edges.head? with
  | some e => .ok e.source
  | none => .error .emptyPath

/-- The element that the newest edge leads to. -/
def last (p : Path) : Except Fault Element :=
  match p.edges.getLast? with
  | some e => .ok e.target
  | none => .error .emptyPath

/-- Put an edge on a path. It has to lead to the top of the path, unless the path is empty. -/
def push (p : Path) (e : Edge) : Except Fault Path :=
  match p.edges.getLast? with
  | none => .ok ⟨p.edges ++ [e]⟩
  | some newest =>
    if newest.source = e.target then .ok ⟨p.edges ++ [e]⟩
    else .error (.disconnectedEdge e.text newest.source.id)

/-- The two elements of each edge, source first. -/
def endpoints (edges : List Edge) : List Element := edges.flatMap fun e => [e.source, e.target]

/-- The first occurrences of the elements of a list. -/
def firstOccurrences (es : List Element) : List Element :=
  es.foldl (fun found e => if e ∈ found then found else found ++ [e]) []

/-- The elements of the path, each once. -/
def nodes (p : Path) : List Element := firstOccurrences (endpoints p.edges)

/-- The elements of all edges in their order, with the first one in front once more. -/
def orderedNodes (p : Path) : List Element :=
  match p.edges with
  | [] => []
  | e :: _ => e.source :: endpoints p.edges

/-- The elements of all edges in their order, without the one that the oldest edge leaves from. -/
def tailNodes (p : Path) : List Element :=
  match p.edges with
  | [] => []
  | e :: rest => e.target :: endpoints rest

/-- The top of the path, and the elements of its edges behind it. -/
def elements (p : Path) : Except Fault (List Element) := p.top.map (· :: p.tailNodes)

/-- The relations along the path. -/
def kinds (p : Path) : List Relation := p.edges.map Edge.relation

/-- Whether two paths have as many edges, and at each place one of the same relation. -/
def sameKinds (p q : Path) : Bool :=
  p.length = q.length && (p.edges.zip q.edges).all fun (a, b) => a.relation = b.relation

/-- The written form of a path: the first element, and each edge with the element it leads to. -/
def text (p : Path) : String :=
  let parts := match p.edges with
    | [] => []
    | e :: _ => e.source.id :: p.edges.flatMap fun e => [e.text, e.target.id]
  "[" ++ ", ".intercalate parts ++ "]"

end Path
end CodeAtlas
