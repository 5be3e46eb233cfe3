import HetidaDesigner.Models.Io

/-!
# Links

The data of `persistence/models/link.py`. A link carries the three checks that pydantic runs
on it as fields: matching data types, different operators at its ends, and at least one end
at an operator. An end without operator refers to an io of the workflow itself.
-/

namespace HetidaDesigner

/-- Start or end point of a link. -/
structure Vertex where
  operator : Option UUID
  connector : Connector
  deriving DecidableEq, Repr

/-- The key under which the validation dictionaries file a link end. -/
def Vertex.key (vertex : Vertex) : Option UUID × UUID := (vertex.operator, vertex.connector.id)

/-- Move the connector of a vertex. -/
def Vertex.setPosition (vertex : Vertex) (position : Position) : Vertex :=
  { vertex with connector := { vertex.connector with position := position } }

@[simp] theorem Vertex.setPosition_operator (vertex : Vertex) (position : Position) :
    (vertex.setPosition position).operator = vertex.operator := rfl

@[simp] theorem Vertex.setPosition_toIo (vertex : Vertex) (position : Position) :
    (vertex.setPosition position).connector.toIo = vertex.connector.toIo := rfl

@[simp] theorem Vertex.setPosition_position (vertex : Vertex) (position : Position) :
    (vertex.setPosition position).connector.position = position := rfl

@[simp] theorem Vertex.setPosition_key (vertex : Vertex) (position : Position) :
    (vertex.setPosition position).key = vertex.key := rfl

/-- Data types at both ends of a link are equal or one of them is `ANY`. -/
def typesMatch (start finish : DataType) : Prop :=
  start = finish ∨ start = .any ∨ finish = .any

/-- A link of a workflow content; the source calls its two vertices `start` and `end`. -/
structure Link where
  id : UUID
  start : Vertex
  finish : Vertex
  path : List Position
  types_match : typesMatch start.connector.dataType finish.connector.dataType
  no_self_reference : start.operator ≠ finish.operator
  no_link_without_operator : ¬ (start.operator = none ∧ finish.operator = none)
  deriving DecidableEq

namespace Link

/-- Move the start connector of a link. -/
def setStartPosition (link : Link) (position : Position) : Link :=
  { link with start := link.start.setPosition position }

/-- Move the end connector of a link. -/
def setFinishPosition (link : Link) (position : Position) : Link :=
  { link with finish := link.finish.setPosition position }

@[simp] theorem setStartPosition_start (link : Link) (position : Position) :
    (link.setStartPosition position).start = link.start.setPosition position := rfl

@[simp] theorem setStartPosition_finish (link : Link) (position : Position) :
    (link.setStartPosition position).finish = link.finish := rfl

@[simp] theorem setFinishPosition_start (link : Link) (position : Position) :
    (link.setFinishPosition position).start = link.start := rfl

@[simp] theorem setFinishPosition_finish (link : Link) (position : Position) :
    (link.setFinishPosition position).finish = link.finish.setPosition position := rfl

/-- Moving a start connector to where it is changes nothing. -/
theorem setStartPosition_self (link : Link) :
    link.setStartPosition link.start.connector.position = link := rfl

/-- Moving an end connector to where it is changes nothing. -/
theorem setFinishPosition_self (link : Link) :
    link.setFinishPosition link.finish.connector.position = link := rfl

/-- A link between two operators; only these become connections of the workflow node. -/
def inner (link : Link) : Bool := link.start.operator.isSome ∧ link.finish.operator.isSome

end Link

end HetidaDesigner
