import GraphQuery.Query.Normal
import GraphQuery.Query.Text
import GraphQuery.Text.Quoted

/-! # Digests

A digest groups equal texts in caches and logs. It is eight hexadecimal digits of a word that is
multiplied by 33 and combined with every code point in turn. The digest of a query is that of the
canonical text of its normal form, so that queries with one normal form share it.
-/

namespace GraphQuery

def digestStep (word : UInt32) (c : Char) : UInt32 :=
  word * 33 ^^^ c.val

def digestWord (cs : List Char) : UInt32 :=
  cs.foldl digestStep 5381

def digest (s : String) : String :=
  String.ofList (Text.hexDigits 8 (digestWord s.toList).toNat)

namespace Query

def hash (q : Query) : Except TreeFault String :=
  q.normal.map fun normal => digest normal.toTree.canonicalText

/-- The statement of the normal form of a query. -/
def build (q : Query) : Except TreeFault Statement := do
  let normal ← q.normal
  normal.statement

end Query

example : digest "" = "00001505" := by decide +kernel

end GraphQuery
