import HubKeeper.Dns.Record
import HubKeeper.Dns.Target
import HubKeeper.Error
import HubKeeper.Json.Record

/-!
Zones, records and batches in the JSON of the API.

Names and targets of aliases are sent without the point at their end, and get it
back when they are read.
-/

namespace HubKeeper.Cloudflare

/-- A name in lower case with one point at its end. -/
def fullName (name : String) : String :=
  Dns.qualified (Text.trimEndOf '.' name)

def zone? (json : Json) : Option Dns.Zone :=
  match json.record? ["id", "name"] with
  | some [id, name] => do
      return .named (← id.required? Json.text?) (← name.required? Json.text?)
  | _ => none

/-- The value of a record in the form in which records are compared. -/
def recordValue (type : Dns.RecordType) (content : String) : String :=
  match type with
  | .canonicalName => fullName content
  | _ => content

def record? (json : Json) : Option Dns.Record :=
  match json.record? ["id", "name", "type", "content", "ttl"] with
  | some [id, name, type, content, ttl] => do
      let id ← id.required? Json.text?
      let name ← name.required? Json.text?
      let type := Dns.RecordType.named (← type.required? Json.text?)
      let content ← content.required? Json.text?
      let ttl ← ttl.required? Json.word?
      return ⟨fullName name, type, ttl, recordValue type content, some id⟩
  | _ => none

def recordFields (record : Dns.Record) : List (String × Json) :=
  [("name", .str (Text.trimEndOf '.' record.name)), ("type", .str record.type.text),
    ("content", .str (Text.trimEndOf '.' record.value)), ("ttl", .ofInt record.ttl),
    ("proxied", .bool false)]

def recordId (record : Dns.Record) : Except Error String :=
  match record.id with
  | some id => .ok id
  | none => .error (.invalidInput (record.name ++ " has no Cloudflare record id"))

/-- Changes of a batch by kind, each in the order of the batch. -/
structure Payload where
  deletes : List Json
  puts : List Json
  posts : List Json

namespace Payload

/-- Puts one change before the others of its kind. -/
def add (change : Dns.Change) (payload : Payload) : Except Error Payload :=
  match change.action with
  | .create =>
      .ok { payload with posts := .obj (recordFields change.record) :: payload.posts }
  | .upsert =>
      (recordId change.record).map fun id =>
        { payload with puts := .obj (recordFields change.record ++ [("id", .str id)]) :: payload.puts }
  | .delete =>
      (recordId change.record).map fun id =>
        { payload with deletes := .obj [("id", .str id)] :: payload.deletes }

/-- The changes of a batch; the first one that needs an id and has none is an error. -/
def ofBatch : Dns.Batch → Except Error Payload
  | [] => .ok ⟨[], [], []⟩
  | change :: rest =>
      match add change ⟨[], [], []⟩ with
      | .error e => .error e
      | .ok first =>
          (ofBatch rest).map fun payload =>
            ⟨first.deletes ++ payload.deletes, first.puts ++ payload.puts,
              first.posts ++ payload.posts⟩

def toJson (payload : Payload) : Json :=
  .obj [("deletes", .arr payload.deletes), ("puts", .arr payload.puts),
    ("posts", .arr payload.posts)]

end Payload

end HubKeeper.Cloudflare
