import GraphQuery.Fault.Basic
import GraphQuery.Log
import GraphQuery.Query.Text

/-! # Sessions

A session sends statements to the database one after another and gets records or a fault. What it
answers may depend on how many statements it was sent before. Faults of the database are logged and
wrapped; faults of the domain pass unchanged.
-/

namespace GraphQuery

/-- A session: how the database answers, what it was sent, and what was logged. -/
structure Session where
  respond : Nat → Statement → Except Fault (List Value)
  sent : List Statement
  log : List LogLine

namespace Session

def start (respond : Nat → Statement → Except Fault (List Value)) : Session :=
  ⟨respond, [], []⟩

def channel : String := "cyphergraph.cypher.service"

/-- The fault of a statement that the database could not execute. -/
def failure (statement : Statement) (fault : Fault) : Fault :=
  .query "Cypher query execution failed" (some fault) (.text statement.text) statement.parameters

/-- Sends a statement: its records, and the session afterwards. -/
def send (statement : Statement) (session : Session) : Except Fault (List Value) × Session :=
  let after := { session with sent := session.sent ++ [statement] }
  match session.respond session.sent.length statement with
  | .ok records => (.ok records, after)
  | .error fault =>
    if fault.isDomain then (.error fault, after)
    else
      let line : LogLine := ⟨.debug, channel, s!"Query failed: {fault.message}"⟩
      (.error (failure statement fault), { after with log := session.log ++ [line] })

/-- Every statement is kept, whatever comes of it. -/
@[simp] theorem sent_send (statement : Statement) (session : Session) :
    (session.send statement).2.sent = session.sent ++ [statement] := by
  unfold send
  cases session.respond session.sent.length statement with
  | ok records => rfl
  | error fault => cases domain : fault.isDomain <;> simp [domain]

end Session

end GraphQuery
