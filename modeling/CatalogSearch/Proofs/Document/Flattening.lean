import CatalogSearch.Proofs.Record.RoundTrip

/-!
# Payloads

Payloads whatever the names of the loader fields are. A payload has the fields of its document, then
those loader fields whose names none of these has; so a loader field replaces nothing, and the
document is read back from the payload (`Document.payloads_flatten`). Null stands for numbers that
are not finite.
-/

namespace CatalogSearch

open Schema

/-- Of members whose names differ, those are added whose names are free. -/
theorem Payload.entries_defaults {p : Payload} {l : List (String × Json)}
    (h : (l.map Prod.fst).Nodup) :
    (p.defaults l).entries = p.entries ++ l.filter (fun e => e.1 ∉ p.keys) := by
  induction l generalizing p with
  | nil => exact (List.append_nil _).symm
  | cons e rest ih =>
    obtain ⟨he, hrest⟩ := List.nodup_cons.1 h
    have hdefaults : p.defaults (e :: rest) = (p.default e.1 e.2).defaults rest := rfl
    rw [hdefaults, ih hrest, default]
    by_cases hmem : e.1 ∈ p.keys
    · rw [if_pos (OrderedMap.contains_iff.2 hmem), List.filter_cons_of_neg (by simpa using hmem)]
    · have hentries : (p.insert e.1 e.2).entries = p.entries ++ [e] :=
        OrderedMap.setEntry_of_not_mem e.1 e.2 hmem
      have hkeys : (p.insert e.1 e.2).keys = p.keys ++ [e.1] := by
        rw [OrderedMap.keys_insert, if_neg hmem]
      have hfilter : rest.filter (fun e' => e'.1 ∉ p.keys ++ [e.1]) =
          rest.filter (fun e' => e'.1 ∉ p.keys) := by
        refine List.filter_congr fun e' he' => ?_
        have hne : e'.1 ≠ e.1 := fun heq => he (List.mem_map.2 ⟨e', he', heq⟩)
        simp [hne]
      rw [if_neg fun hcontains => hmem (OrderedMap.contains_iff.1 hcontains), hentries, hkeys,
        hfilter, List.filter_cons_of_pos (by simpa using hmem), List.append_assoc]
      rfl

namespace Document

variable {d : Document}

/-- The names of the fields of documents. -/
def fieldNames (d : Document) : List String := d.fields.map Prod.fst

/-- The payload of a document has its fields, then its other loader fields. -/
theorem entries_payload (d : Document) : d.payload.entries = d.fields ++
    (d.written.loaderFields.entries.filter (fun e => e.1 ∉ d.fieldNames)).map
      fun e => (e.1, .arr e.2) := by
  have hnodup :
      ((d.written.loaderFields.entries.map fun e => (e.1, Json.arr e.2)).map Prod.fst).Nodup := by
    rw [List.map_map]
    exact d.written.loaderFields.nodup_keys
  rw [payload, Payload.entries_defaults hnodup, OrderedMap.keys,
    OrderedMap.entries_ofList d.nodup_fields, List.filter_map]
  rfl

theorem keys_payload (d : Document) :
    d.payload.keys = d.fieldNames ++ d.loaderFields.keys.filter (· ∉ d.fieldNames) := by
  rw [← OrderedMap.keys_mapValues (List.map Json.written), OrderedMap.keys, entries_payload,
    List.map_append, List.map_map, OrderedMap.keys, List.filter_map]
  rfl

/-- A document is read from its payload as it is written. -/
theorem ofJson_payload (h : d.KeysOnce) : ofJson d.payload.toJson = .ok d.written := by
  refine ofJson_of_members h fun e he => member?_of_mem d.payload.nodup_keys ?_
  rw [entries_payload]
  exact List.mem_append_left _ he

theorem finite_payload (d : Document) : d.payload.toJson.Finite := by
  have hfields : d.toJson.Finite := d.finite_toJson
  rw [Payload.toJson, entries_payload]
  cases hfields with
  | obj hfields =>
    refine .obj (List.forall_mem_append.2 ⟨hfields, List.forall_mem_map.2 fun e he => ?_⟩)
    obtain ⟨field, -, rfl⟩ := List.mem_map.1 (List.mem_of_mem_filter he)
    exact .arr (List.forall_mem_map.2 fun v _ => Json.finite_written v)

theorem find?_loaderFields (d : Document) : d.payload.find? "loader_fields" =
    some (.obj (d.loaderFields.entries.map fun e => (e.1, .arr (e.2.map Json.written)))) := by
  have hmem : ("loader_fields", ofDictionary .arr d.written.loaderFields) ∈ d.fields := by
    simp only [fields, List.mem_cons, true_or, or_true]
  rw [find?_payload hmem, ofDictionary, written, OrderedMap.mapValues, List.map_map]
  rfl

/-- What the payload of a document is: the fields of the document come first, and then those loader
fields whose names none of them has. In a loader field, under its own name and among the loader
fields, null stands for every number that is not finite. The payload is read as the document with
those nulls, so as the document itself if there are none. -/
structure FlattensTo (d : Document) (p : Payload) : Prop where
  keys : p.keys = d.fieldNames ++ d.loaderFields.keys.filter (· ∉ d.fieldNames)
  field : ∀ e ∈ d.fields, p.find? e.1 = some e.2
  loaderFields : p.find? "loader_fields" =
    some (.obj (d.loaderFields.entries.map fun e => (e.1, .arr (e.2.map Json.written))))
  loaderField : ∀ name values, name ∉ d.fieldNames → d.loaderFields.find? name = some values →
    p.find? name = some (.arr (values.map Json.written))
  finite : p.toJson.Finite
  readBack : ofJson p.toJson = .ok d.written
  readText : Json.Within Json.Limits.narrow.depth p.toJson →
    ofText ofJson p.toJson.print = .ok d.written
  unchanged : (∀ e ∈ d.loaderFields.entries, ∀ v ∈ e.2, v.Finite) → d.written = d

theorem flattensTo_payload (h : d.KeysOnce) : d.FlattensTo d.payload where
  keys := d.keys_payload
  field _ he := find?_payload he
  loaderFields := d.find?_loaderFields
  loaderField name values hname hvalues := by
    have hwritten : (name, values.map Json.written) ∈ d.written.loaderFields.entries :=
      List.mem_map.2 ⟨(name, values), OrderedMap.mem_entries.2 hvalues, rfl⟩
    refine OrderedMap.mem_entries.1 ?_
    rw [entries_payload]
    refine List.mem_append_right _ (List.mem_map.2 ⟨(name, values.map Json.written), ?_, rfl⟩)
    exact List.mem_filter.2 ⟨hwritten, decide_eq_true hname⟩
  finite := d.finite_payload
  readBack := ofJson_payload h
  readText hwithin := by
    rw [ofText, Json.readWithin?_narrow d.finite_payload hwithin]
    exact ofJson_payload h
  unchanged := written_eq

/-- Each document has its payload, in order, whatever its loader fields are named. -/
theorem payloads_flatten {documents : List Document} (h : ∀ d ∈ documents, d.KeysOnce) :
    List.Forall₂ FlattensTo documents (payloads documents) := by
  induction documents with
  | nil => exact .nil
  | cons d rest ih =>
    obtain ⟨hd, hrest⟩ := List.forall_mem_cons.1 h
    exact .cons (flattensTo_payload hd) (ih hrest)

/-- Loader fields with the names of the key, of a text, of a list and of the loader fields
themselves. -/
def sampleShadowing : Document :=
  { sampleDocument with
    loaderFields := .ofList [("version_id", [.str "b"]), ("f", [.float (.infinity false)]),
      ("license", [.null]), ("versions", [.str "9"]), ("loader_fields", [.obj [("f", .int 1)]])] }

theorem payloads_flatten_shadowing : sampleShadowing.KeysOnce ∧ sampleDocument.KeysOnce ∧
    List.Forall₂ FlattensTo [sampleShadowing, sampleDocument]
      (payloads [sampleShadowing, sampleDocument]) := by
  have hshadowing : sampleShadowing.KeysOnce := by unfold KeysOnce; decide +kernel
  have hsample : sampleDocument.KeysOnce := by unfold KeysOnce; decide +kernel
  refine ⟨hshadowing, hsample, payloads_flatten ?_⟩
  exact List.forall_mem_cons.2 ⟨hshadowing, List.forall_mem_singleton.2 hsample⟩

/-- A number that is not finite does not come back: null stands for it in the payload. -/
theorem not_readBack_infinity :
    let d : Document :=
      { sampleDocument with loaderFields := .ofList [("f", [.float (.infinity false)])] }
    d.KeysOnce ∧ d.payload.find? "f" = some (.arr [.null]) ∧
      ofJson d.payload.toJson = .ok { d with loaderFields := .ofList [("f", [.null])] } ∧
      ofJson d.payload.toJson ≠ .ok d ∧ ofText ofJson d.payload.toJson.print ≠ .ok d := by
  intro d
  have hkeys : d.KeysOnce := by unfold KeysOnce; decide +kernel
  have hwithin : Json.Within Json.Limits.narrow.depth d.payload.toJson := by
    unfold Json.Within; decide +kernel
  have hwritten : d.written = { d with loaderFields := .ofList [("f", [.null])] } := by
    decide +kernel
  have hne : d.written ≠ d := by decide +kernel
  have hflat := flattensTo_payload hkeys
  refine ⟨hkeys, by decide +kernel, hwritten ▸ hflat.readBack, ?_, ?_⟩
  · rw [hflat.readBack]
    exact fun h => hne (Checked.ok.inj h)
  · rw [hflat.readText hwithin]
    exact fun h => hne (Checked.ok.inj h)

end Document

end CatalogSearch
