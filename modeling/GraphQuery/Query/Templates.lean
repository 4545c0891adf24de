import GraphQuery.Assoc
import GraphQuery.Syntax.Builders

/-! # Queries for common tasks

Values travel as parameters, one parameter per value, so the text of these queries does not depend
on data. Labels become part of the text and must not come from users. Where a query updates
properties, their parameters carry a mark that keeps them apart from the one that selects the node.
-/

namespace GraphQuery.Template

open Build

def named (parameters : List (String × Value)) : List (Value × Value) :=
  parameters.map fun entry => (.text entry.1, entry.2)

/-- A node with a label that is selected by its id. -/
def selected (label : String) : Tree :=
  node "n" [label] [("id", .parameter "id")]

/-- All persons of at least an age. -/
def matchAdults (minAge : Value) : Query :=
  ⟨[require (labelled "person" ["Person"]),
    .whereClause (atLeast (.property "person" "age") (.parameter "minAge")),
    .returnClause [itemAs (.property "person" "id") "id", itemAs (.property "person" "name") "name",
      itemAs (.property "person" "age") "age"]],
    named [("minAge", minAge)]⟩

/-- All nodes with a label. -/
def findNodesByLabel (label : String) : Query :=
  ⟨[require (labelled "n" [label]), .returnClause [item "n"]], []⟩

/-- The node with a label and an id. -/
def findNodeById (label : String) (id : Value) : Query :=
  ⟨[require (selected label), .returnClause [item "n"]], named [("id", id)]⟩

/-- Creates a node with properties. -/
def createNode (label : String) (properties : List (String × Value)) : Query :=
  ⟨[.createClause (node "n" [label] (properties.map fun entry => (entry.1, .parameter entry.1))),
    .returnClause [item "n"]], named properties⟩

/-- Deletes the node with a label and an id. -/
def deleteNodeById (label : String) (id : Value) (detach : Value) : Query :=
  ⟨[require (selected label), .deleteClause ["n"] detach], named [("id", id)]⟩

/-- The name of the parameter that sets a property. -/
def setName (key : String) : String :=
  "set_" ++ key

/-- Sets properties of the node with a label and an id. -/
def updateNodeProperties (label : String) (id : Value) (properties : List (String × Value)) :
    Query :=
  ⟨[require (selected label),
    .setClause (properties.map fun entry => .assignment "n" entry.1 (.parameter (setName entry.1))),
    .returnClause [item "n"]],
    named (Assoc.put "id" id (properties.map fun entry => (setName entry.1, entry.2)))⟩

end GraphQuery.Template
