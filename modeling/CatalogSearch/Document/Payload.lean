import CatalogSearch.Document

/-!
# Payloads

`Document.payload` is what the search engine is given of a document: its fields, and every loader
field once more beside them under its own name, as it is written. A document's field is never
replaced.
-/

namespace CatalogSearch

/-- The members of an object for the search engine. -/
abbrev Payload := OrderedMap String Json

/-- The payload with a member added unless it has one of that name. -/
def Payload.default (p : Payload) (name : String) (v : Json) : Payload :=
  if p.contains name then p else p.insert name v

/-- The payload with several members added where their names are free. -/
def Payload.defaults (p : Payload) (l : List (String × Json)) : Payload :=
  l.foldl (fun p e => p.default e.1 e.2) p

/-- The payload of a document. -/
def Document.payload (d : Document) : Payload :=
  Payload.defaults (OrderedMap.ofList d.fields)
    (d.written.loaderFields.entries.map (fun e => (e.1, .arr e.2)))

/-- The payloads of documents. -/
def payloads (documents : List Document) : List Payload := documents.map Document.payload

/-- A payload as a JSON object. -/
def Payload.toJson (p : Payload) : Json := .obj p.entries

end CatalogSearch
