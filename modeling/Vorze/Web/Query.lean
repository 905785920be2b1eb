import Vorze.Foundation.Regex
import Vorze.Text

/-! # Request targets of the control server

`HttpConnectSession::create_response` first takes the target apart with the
`PARSE_URL` pattern, then splits the query text into pairs, and only then looks
at the path.
-/

namespace Vorze.HttpConnectSession

/-- `[^ ?]`. -/
def pathByte (b : UInt8) : Bool := b != ch ' ' && b != ch '?'

/-- `[^/ ]`. -/
def queryByte (b : UInt8) : Bool := b != ch '/' && b != ch ' '

/-- `(/([^ ?]+)?)?/?\??([^/ ]+\=[^/ ]+)?`; no letter occurs in it, so `icase`
changes nothing. -/
def PARSE_URL : Regex UInt8 :=
  .seq (.opt (.group 1 (.seq (.char (ch '/')) (.opt (.group 2 (.plus (.cls pathByte)))))))
    (.seq (.opt (.char (ch '/')))
      (.seq (.opt (.char (ch '?')))
        (.opt (.group 3 (.seq (.plus (.cls queryByte))
          (.seq (.char (ch '=')) (.plus (.cls queryByte))))))))

/-- `match[1]` and `match[3]`; a group that took no part reads as the empty string. -/
def parseUrl (url : Bytes) : Option (Bytes × Bytes) :=
  (PARSE_URL.fullMatch url).map fun caps => ((caps 1).getD [], (caps 3).getD [])

/-- What `create_response` does with a target. -/
inductive Route
  | status
  | op (query : Bytes)
  | notFound
  deriving DecidableEq, Repr

def route (target : Bytes) : Route :=
  if target = text "/" then .status
  else
    match parseUrl target with
    | some (path, query) => if path = text "/op" then .op query else .notFound
    | none => .notFound

/-- The query text of the `path_op` call, if `create_response` makes that call. -/
def pathOpQuery (target : Bytes) : Option Bytes :=
  match route target with
  | .op query => some query
  | _ => none

/-- `QueryPairsType`, a `std::multimap`: equal keys keep their insertion order,
and nothing reads the order between different keys. -/
abbrev QueryPairs := List (Bytes × Bytes)

/-- One piece of the query text: the three branches on the number of pieces
between `=` signs. The last one joins what follows the first `=` sign. -/
def splitPair (piece : Bytes) : Option (Bytes × Bytes) :=
  match piece.splitOn (ch '=') with
  | [] => none
  | [key] => some (key, [])
  | [key, value] => some (key, value)
  | key :: values => some (key, values.flatten)

/-- The query split loop. `boost::split` keeps empty pieces. -/
def splitQuery (query : Bytes) : QueryPairs := (query.splitOn (ch '&')).filterMap splitPair

/-- The pairs that `create_response` passes to `path_op`, if it calls it. -/
def pathOpPairs (target : Bytes) : Option QueryPairs := (pathOpQuery target).map splitQuery

/-- `multimap::find`. -/
def QueryPairs.find (pairs : QueryPairs) (key : Bytes) : Option Bytes :=
  (List.find? (fun pair => pair.1 == key) pairs).map Prod.snd

/-! ## The client's side -/

/-- The pieces `key=value` joined with `&`. -/
def joinPairs (pairs : List (Bytes × Bytes)) : Bytes :=
  [ch '&'].intercalate (pairs.map fun pair => pair.1 ++ ch '=' :: pair.2)

/-- A target that carries the pairs to `path_op`. -/
def opTarget (pairs : List (Bytes × Bytes)) : Bytes := text "/op?" ++ joinPairs pairs

end Vorze.HttpConnectSession
