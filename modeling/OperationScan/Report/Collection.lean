import OperationScan.Files.Path
import OperationScan.Report.Basic
import OperationScan.Text.Printable

/-!
# Collections of requests

A collection holds one request for each operation. Where the requests go is a variable of the
collection, which is set after the collection has been imported.

* `collectionValue`: a collection as data.
* `collectionPath`: where the collection that belongs to a report is written.
-/

namespace OperationScan

/-- The form of collections. -/
def collectionSchema : Text :=
  "https://schema.getpostman.com/json/collection/v2.1.0/collection.json".toList

/-- The variable for the place where requests go. -/
def endpointVariable : Text := "GRAPHQL_ENDPOINT".toList

/-- A use of the variable. -/
def endpoint : Text :=
  ['\x7b', '\x7b'] ++ endpointVariable ++ ['\x7d', '\x7d']

/-- The name of a collection that is given none. -/
def defaultCollectionName : Text := "GraphQL Operations".toList

/-- A header of a request. -/
def headerValue (name : String) : Value :=
  record [("key", .string name.toList), ("value", .string "application/json".toList)]

/-- The request for an operation. -/
def requestValue (o : Operation) : Except Json.WriteFault Value := do
  let bindings ← Json.writeIndented (.object o.bindings)
  let body := record [("mode", .string "graphql".toList),
    ("graphql", record [("query", .string o.rawText), ("variables", .string bindings)])]
  return record [("name", .string o.name), ("request", record [
    ("method", .string "POST".toList),
    ("header", .array [headerValue "Content-Type", headerValue "Accept"]),
    ("body", body),
    ("url", record [("raw", .string endpoint), ("host", .array [.string endpoint])])])]

/-- A collection of requests. -/
def collectionValue (operations : List Operation) (name : Text) : Except Json.WriteFault Value := do
  let items ← operations.mapM requestValue
  return record [
    ("info", record [("name", .string name), ("schema", .string collectionSchema)]),
    ("variable", .array [record [("key", .string endpointVariable), ("value", .string []),
      ("type", .string "string".toList)]]),
    ("item", .array items)]

/-- A path without a name, beside which nothing can be written. -/
structure NamelessPath where
  path : Path
  deriving Repr, DecidableEq

/-- The wording of the fault. -/
def NamelessPath.message (f : NamelessPath) : Text :=
  "PosixPath(".toList ++ Text.quoted f.path.text ++ ") has an empty name".toList

/-- Where the collection that belongs to a report is written: the ending of the report gives way,
if it is the usual one. -/
def collectionPath (report : Path) : Except NamelessPath Path :=
  if report.name.isEmpty then .error ⟨report⟩
  else
    let stem := if report.suffix == ".json".toList then report.name.take (report.name.length - 5)
      else report.name
    .ok (report.withName (stem ++ ".postman.json".toList))

end OperationScan
