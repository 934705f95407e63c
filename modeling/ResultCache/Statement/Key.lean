import ResultCache.Error
import ResultCache.Key
import ResultCache.Statement

/-!
# The lookup key of an invocation

One invocation of a statement is identified by the statement, the window of rows, the text, the
values that the statement reads, and the environment it runs in.
-/

namespace ResultCache.Statement

variable {σ : Type}

/-- The components of the key: id, offset and limit as signed words, text, input values, and the
environment if there is one. -/
def keyComponents (st : Statement σ) (bound : BoundStatement) (bounds : RowBounds)
    (environment : Option String) : List Value :=
  [.text st.id, .int bounds.offset.toInt64, .int bounds.limit.toInt64, .text bound.sql] ++
    bound.inputs ++ environment.toList.map .text

/-- The key of an invocation. Parameters that cannot be bound have none. -/
def lookupKey (st : Statement σ) (params : Parameters) (bounds : RowBounds)
    (environment : Option String) : Except Error Key :=
  match st.bind params with
  | .error fault => .error (.key (.statement st.id fault))
  | .ok bound => .ok (Key.ofComponents (st.keyComponents bound bounds environment))

end ResultCache.Statement
