import SumTree.Failure
import SumTree.Text.Charset
import SumTree.Tree.Build
import SumTree.Wire.Record

/-!
# The worker

A worker answers a request with entries by the sum tree over them. What is wrong with a request is
said in the answer; only what no answer is foreseen for is a failure of the worker itself.

## Main Definitions

* `Request`, `Response` — what a worker receives and what it answers.
* `Worker` — the hasher and the odd-node policy of a worker.
* `Worker.answer` — the answer to a request.
* `Worker.answerBody` — the answer to a body of JSON entries.

## Design Notes

The checks run in the order in which a request is unpacked: its target, its size, its text, its JSON,
its entries one by one, their numbers of columns, and last the building of the tree.
-/

namespace SumTree

/-- What a worker receives. -/
structure Request where
  method : String
  /-- The path, with its query if there is one. -/
  path : String
  /-- The media type of the body, with its parameters. -/
  contentType : String
  body : List UInt8

/-- What a worker answers. -/
structure Response where
  status : Nat
  /-- The JSON body, if the answer has one. -/
  body? : Option Json

/-- The hasher and the odd-node policy of a worker. -/
structure Worker where
  hasher : Hasher
  policy : OddPolicy

namespace Request

/-- The size from which on a body is refused. -/
def sizeLimit : Nat := 1048576

/-- The path without its query. -/
def target (r : Request) : String :=
  String.ofList (r.path.toList.takeWhile fun c => c != '?' && c != '#')

/-- The label of the character set in a media type. -/
def charsetLabel (contentType : String) : String :=
  let parameters := (contentType.splitOn ";").drop 1
  let value? := parameters.findSome? fun parameter =>
    match parameter.splitOn "=" with
    | name :: value =>
      if (Blank.trim name).toLower == "charset" then
        some (Blank.trim ("=".intercalate value))
      else none
    | [] => none
  String.ofList ((value?.getD "").toList.filter (· != '"'))

end Request

namespace Response

/-- An answer that says what is wrong with a request. -/
def refusal (status : Nat) (text : String) : Response :=
  ⟨status, some (.obj [("error", .str text)])⟩

end Response

namespace Worker

/-- How the bodies of requests are read: as deeply nested as the worker can follow, and with strings
that need not be Unicode text. -/
def dialect : Json.Dialect :=
  ⟨970, true⟩

/-- The text that reports the issues of an entry. -/
def issueText (issues : List Issue) : String :=
  let count := issues.length
  toString count ++ (if count == 1 then " validation error" else " validation errors")
    ++ " for WireEntry"

/-- One entry of a request, or the text that reports what is wrong with it. -/
def readEntry (item : Json) : Except String ReceivedEntry :=
  match WireEntry.check item with
  | .error issues => .error (issueText issues)
  | .ok wire => wire.toEntry.mapError ValueFault.message

/-- The mini-tree over the entries of a request. All leaves are hashed before any parent, and in their
order; a name that is no text cannot be hashed. -/
def build (w : Worker) (received : List ReceivedEntry) : Except Failure MiniTree :=
  let entries := ReceivedEntry.named received
  if entries.length < received.length then
    match leavesOf w.hasher entries with
    | .error fault => .error fault.failure
    | .ok _ => .error (.elsewhere "UnicodeEncodeError" "")
  else (MiniTree.build w.hasher w.policy entries).mapError TreeFault.failure

/-- The answer to entries that are all good. -/
def answerEntries (w : Worker) (received : List ReceivedEntry) : Except Failure Response :=
  let width := (received.head?.map ReceivedEntry.width).getD 0
  match firstMisfit width 0 (received.map ReceivedEntry.width) with
  | some (position, found) =>
    .ok (.refusal 422 ("Entry " ++ toString position ++ " has " ++ toString found
      ++ " balance columns, expected " ++ toString width))
  | none =>
    match w.build received with
    | .error failure => .error failure
    | .ok tree =>
      match Wire.encodeTree tree with
      | .ok body => .ok ⟨200, some body⟩
      | .error _ => .error (.elsewhere "ValidationError" "")

/-- The answer to a JSON body. -/
def answerBody (w : Worker) (body : Json) : Except Failure Response :=
  match body with
  | .arr [] => .ok (.refusal 400 "Request contains no entries")
  | .arr items =>
    match items.mapM readEntry with
    | .error text => .ok (.refusal 400 ("Malformed entry: " ++ text))
    | .ok received => w.answerEntries received
  | _ => .ok (.refusal 400 "Request body must be a JSON array of entries")

/-- The answer to the text of a body. -/
def answerText (w : Worker) (text : String) : Except Failure Response :=
  match Json.read dialect text with
  | .ok body => w.answerBody body
  | .error (.malformed complaint) =>
    .ok (.refusal 400 ("Request body is not valid JSON: " ++ complaint.text text.toList))
  | .error .tooDeep => .error (.elsewhere "RecursionError" "")
  | .error (.tooLong digits) => .error (.value (.tooLongToRead digits))

/-- The answer to a request. -/
def answer (w : Worker) (r : Request) : Except Failure Response :=
  if r.target != "/" then .ok ⟨404, none⟩
  else if r.method != "POST" then .ok ⟨405, none⟩
  else if r.body.length ≥ Request.sizeLimit then .ok ⟨413, none⟩
  else
    let label := Request.charsetLabel r.contentType
    match if label.isEmpty then some .utf8 else Charset.ofLabel? label with
    | none => .error (.elsewhere "LookupError" ("unknown encoding: " ++ label))
    | some charset =>
      match charset.decode? r.body with
      | none => .error (.elsewhere "UnicodeDecodeError" "")
      | some text => w.answerText text

end Worker

end SumTree
