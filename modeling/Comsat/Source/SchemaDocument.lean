import Comsat.Types.JsonPointer
import Mathlib

set_option relaxedAutoImplicit false
set_option autoImplicit false

/-!
# Schemas of tools

The check of a tool's schema walks from the root over the known keywords, and resolves every local
reference in the resource that it stands in. A pointer resolves if it finds anything there, whether
or not the walk comes by.

## Main definitions

* `validateSchemaDocument` — the check, with fuel for its recursion.
* `Place`, `SchemaPlace` — positions in a document with their resource, and those that known
  keywords lead to.
* `Target` — what a local reference leads to.
* `Follows` — a step into a schema, or along a reference to one.

## Main results

* `schema_document_closed` — from schema to schema, everything that is reached is in order.
* `pointer_leaves_schemas` — a pointer may lead to what is no schema.

## Design

* The recursion of the source has no bound; here it has fuel, and any fuel beyond the nesting of the
  document comes to the same.
* A resource is named by the steps that lead to its root.
-/

namespace Comsat.ToolSchema

open Json

/-! ## Keywords -/

/-- Keywords whose value is one schema, or a list of them. -/
def singleKeywords : List String :=
  ["additionalItems", "additionalProperties", "contains", "contentSchema", "else", "if", "items",
    "not", "propertyNames", "then", "unevaluatedItems", "unevaluatedProperties"]

/-- Keywords whose value is a list of schemas. -/
def arrayKeywords : List String := ["allOf", "anyOf", "oneOf", "prefixItems"]

/-- Keywords whose value names schemas. -/
def mapKeywords : List String :=
  ["$defs", "definitions", "dependentSchemas", "patternProperties", "properties"]

/-- Keywords that hold a reference. -/
def referenceKeywords : List String := ["$ref", "$dynamicRef"]

/-- Keywords that declare a name. -/
def anchorKeywords : List String := ["$anchor", "$dynamicAnchor"]

/-- How the value of a keyword holds schemas. -/
inductive Position where
  | single
  | array
  | map
deriving DecidableEq, Repr

/-- How the value of a keyword holds schemas, if it does. -/
def position (keyword : String) : Option Position :=
  if singleKeywords.contains keyword then some .single
  else if arrayKeywords.contains keyword then some .array
  else if mapKeywords.contains keyword then some .map
  else none

/-- The schemas in the value of a keyword. -/
def children (position : Position) (value : Json) : Except String (List Json) :=
  match position, value with
  | .single, .arr items => .ok items
  | .single, value => .ok [value]
  | .array, .arr items => .ok items
  | .array, _ => .error "schema array position must hold an array"
  | .map, .obj entries => .ok (entries.map Prod.snd)
  | .map, _ => .error "schema map position must hold an object"

/-- Whether a value is an object with a key. -/
def containsKey (value : Json) (key : String) : Bool := (value.get? key).isSome

/-! ## The check -/

/-- The names that a schema declares itself. -/
def declared (node : Json) : List String :=
  anchorKeywords.filterMap fun keyword => (node.get? keyword).bind asStr?

/-- The names that the schemas in the value of a keyword declare. -/
def collectMemberAnchors (collect : Json → List String) (keyword : String) (value : Json) :
    List String :=
  match position keyword with
  | none => []
  | some position =>
    match children position value with
    | .error _ => []
    | .ok values => values.flatMap collect

/-- The names that a schema and the schemas in it declare, without those of other resources. -/
def collectAnchors : ℕ → Json → Bool → List String
  | 0, _, _ => []
  | fuel + 1, node, isResourceRoot =>
    match node with
    | .obj fields =>
      if !isResourceRoot && containsKey node "$id" then []
      else declared node ++ fields.flatMap fun field =>
        collectMemberAnchors (fun child => collectAnchors fuel child false) field.1 field.2
    | _ => []

/-- A resource: what local references are resolved in. -/
structure Resource where
  root : Json
  anchors : List String

/-- The resource of a root. -/
def Resource.new (fuel : ℕ) (root : Json) : Resource := ⟨root, collectAnchors fuel root true⟩

/-- Whether a reference resolves; those to other documents are left alone. -/
def Resource.resolves (resource : Resource) (reference : String) : Bool :=
  match Text.stripPrefix "#" reference with
  | none => true
  | some fragment =>
    if fragment = "" then true
    else if fragment.toList.head? = some '/' then (resource.root.pointer? fragment).isSome
    else resource.anchors.contains fragment

/-- An error of the check of a tool. -/
inductive ConformanceError where
  | invalidToolSchema (tool reason : String)
deriving DecidableEq, Repr

/-- How the check stops early: with an error, by a panic, or because its fuel is used up. -/
inductive Stop where
  | error (error : ConformanceError)
  | panic (message : String)
  | fuel
deriving DecidableEq, Repr

/-- The error of a schema that is not in order. -/
def invalid (tool reason : String) : Stop := .error (.invalidToolSchema tool reason)

/-- Checks the references of a schema. -/
def checkReferences (tool : String) (node : Json) (resource : Resource) : Except Stop Unit :=
  forM referenceKeywords fun keyword =>
    match node.get? keyword with
    | none => .ok ()
    | some (.str reference) =>
      if resource.resolves reference then .ok ()
      else .error (invalid tool ("unresolved local ref " ++ reference))
    | some _ => .error (invalid tool (keyword ++ " must be a string"))

/-- Walks the schemas in the value of a keyword. -/
def walkMember (walk : Json → Except Stop Unit) (tool keyword : String) (value : Json) :
    Except Stop Unit :=
  match position keyword with
  | none => .ok ()
  | some position =>
    match children position value with
    | .error reason => .error (invalid tool reason)
    | .ok values => forM values walk

/-- Walks the members of a schema. -/
def walkMembers (walk : Json → Except Stop Unit) (tool : String) (node : Json)
    (resource : Resource) : Except Stop Unit :=
  match node with
  | .obj fields => do
    checkReferences tool node resource
    forM fields fun field => walkMember walk tool field.1 field.2
  | _ => .error (.panic "checked by caller")

/-- Walks a schema. -/
def walk (tool : String) : ℕ → Json → Resource → Bool → Except Stop Unit
  | 0, _, _, _ => .error .fuel
  | fuel + 1, node, resource, isResourceRoot =>
    match node with
    | .bool _ => .ok ()
    | .obj _ =>
      if !isResourceRoot && containsKey node "$id" then
        let resource := Resource.new (fuel + 1) node
        walkMembers (fun child => walk tool fuel child resource false) tool node resource
      else if !isResourceRoot && containsKey node "$schema" then
        .error (invalid tool "nested $schema outside a resource root")
      else walkMembers (fun child => walk tool fuel child resource false) tool node resource
    | _ => .error (invalid tool "schema position must be an object or boolean")

/-- Checks the schema of a tool. -/
def validateSchemaDocument (fuel : ℕ) (tool : String) (document : Json) : Except Stop Unit :=
  walk tool fuel document (.new fuel document) true

/-! ## Positions -/

/-- The schemas that known keywords of a schema lead to, with the steps there. -/
inductive SubSchema (node : Json) : List Step → Json → Prop
  | single {keyword : String} {value : Json} (hvalue : node.get? keyword = some value)
    (hposition : position keyword = some .single) (hnot : ∀ items, value ≠ .arr items) :
    SubSchema node [.key keyword] value
  | item {keyword : String} {items : List Json} {i : ℕ} {child : Json}
    (hvalue : node.get? keyword = some (.arr items))
    (hposition : position keyword = some .single ∨ position keyword = some .array)
    (hchild : items[i]? = some child) : SubSchema node [.key keyword, .index i] child
  | entry {keyword name : String} {entries : List (String × Json)} {child : Json}
    (hvalue : node.get? keyword = some (.obj entries))
    (hposition : position keyword = some .map) (hchild : (obj entries).get? name = some child) :
    SubSchema node [.key keyword, .key name] child

/-- A position in a document: the steps to the root of its resource, the steps to it, and the value
that stands there. -/
structure Place where
  base : List Step
  path : List Step
  node : Json

/-- The position of a schema in a schema. One with an identifier is a resource of its own. -/
def Place.sub (place : Place) (steps : List Step) (child : Json) : Place where
  base := if containsKey child "$id" then place.path ++ steps else place.base
  path := place.path ++ steps
  node := child

/-- The positions of schemas in a document: the root, and what known keywords lead to. -/
inductive SchemaPlace (document : Json) : Place → Prop
  | root : SchemaPlace document ⟨[], [], document⟩
  | sub {place : Place} {steps : List Step} {child : Json} (hplace : SchemaPlace document place)
    (hchild : SubSchema place.node steps child) : SchemaPlace document (place.sub steps child)

/-- What the fragment of a local reference leads to in its resource: the root, the value that a
pointer finds, or a schema that declares the name. -/
inductive Target (document : Json) (place : Place) : String → List Step → Json → Prop
  | root {node : Json} (hroot : document.at? place.base = some node) :
    Target document place "" place.base node
  | pointer {fragment : String} {root node : Json} {steps : List Step}
    (hslash : fragment.toList.head? = some '/') (hroot : document.at? place.base = some root)
    (hsteps : root.locate (pointerTokens fragment) = some steps)
    (hnode : root.at? steps = some node) :
    Target document place fragment (place.base ++ steps) node
  | anchor {fragment : String} {target : Place} (hslash : fragment.toList.head? ≠ some '/')
    (hne : fragment ≠ "") (htarget : SchemaPlace document target)
    (hbase : target.base = place.base) (hname : fragment ∈ declared target.node) :
    Target document place fragment target.path target.node

/-- A local reference on a schema. -/
def LocalReference (node : Json) (fragment : String) : Prop :=
  ∃ keyword ∈ referenceKeywords, node.get? keyword = some (.str ("#" ++ fragment))

/-- A step to a schema in a schema, or along a local reference to a schema. -/
inductive Follows (document : Json) : Place → Place → Prop
  | keyword {place : Place} {steps : List Step} {child : Json}
    (hchild : SubSchema place.node steps child) :
    Follows document place (place.sub steps child)
  | reference {place target : Place} {fragment : String}
    (hreference : LocalReference place.node fragment)
    (htarget : Target document place fragment target.path target.node)
    (hschema : SchemaPlace document target) : Follows document place target

/-- The steps to a schema in a schema lead there. -/
lemma SubSchema.at?_eq {node child : Json} {steps : List Step} (h : SubSchema node steps child) :
    node.at? steps = some child := by
  cases h with
  | single hvalue => rw [at?, child?, hvalue]; rfl
  | item hvalue _ hchild => rw [at?, child?, hvalue, Option.bind_some, at?, child?, hchild]; rfl
  | entry hvalue _ hchild => rw [at?, child?, hvalue, Option.bind_some, at?, child?, hchild]; rfl

namespace SchemaPlace

variable {document : Json} {place : Place}

/-- A schema stands at its position. -/
lemma at?_path (h : SchemaPlace document place) : document.at? place.path = some place.node := by
  induction h with
  | root => rfl
  | sub _ hchild ih => rw [Place.sub, at?_append, ih, Option.bind_some, hchild.at?_eq]

/-- The root of a resource is a schema of the resource. -/
lemma base (h : SchemaPlace document place) :
    ∃ root, SchemaPlace document ⟨place.base, place.base, root⟩ := by
  induction h with
  | root => exact ⟨document, .root⟩
  | @sub place steps child hplace hchild ih =>
    by_cases hid : containsKey child "$id" = true
    · have hsub := SchemaPlace.sub hplace hchild
      rw [Place.sub, if_pos hid] at hsub ⊢
      exact ⟨child, hsub⟩
    · rw [Place.sub, if_neg hid]
      exact ih

/-- A step from a schema leads to a schema. -/
lemma follows {target : Place} (h : SchemaPlace document place)
    (hfollows : Follows document place target) : SchemaPlace document target := by
  cases hfollows with
  | keyword hchild => exact h.sub hchild
  | reference _ _ hschema => exact hschema

/-- Every schema on a way from a schema is one. -/
lemma reached {target : Place} (h : SchemaPlace document place)
    (hway : Relation.ReflTransGen (Follows document) place target) :
    SchemaPlace document target := by
  induction hway with
  | refl => exact h
  | tail _ hfollows ih => exact ih.follows hfollows

/-- Only a pointer may lead to what is no schema. -/
lemma of_target (h : SchemaPlace document place) {fragment : String} {path : List Step}
    {node : Json} (htarget : Target document place fragment path node)
    (hslash : fragment.toList.head? ≠ some '/') :
    ∃ base, SchemaPlace document ⟨base, path, node⟩ := by
  cases htarget with
  | root hroot =>
    obtain ⟨root, hbase⟩ := h.base
    have hsame : some root = some node := hbase.at?_path.symm.trans hroot
    cases hsame
    exact ⟨_, hbase⟩
  | pointer hpointer => exact absurd hpointer hslash
  | @anchor _ target _ _ hschema => exact ⟨target.base, hschema⟩

end SchemaPlace

/-- The schemas in the value of a keyword are those that steps lead to. -/
lemma exists_member_of_subSchema {fields : List (String × Json)} {steps : List Step} {child : Json}
    (h : SubSchema (.obj fields) steps child) :
    ∃ field ∈ fields, ∃ how values, position field.1 = some how ∧
      children how field.2 = .ok values ∧ child ∈ values := by
  cases h with
  | single hvalue hposition hnot =>
    refine ⟨_, mem_of_get? hvalue, .single, [child], hposition, ?_, List.mem_singleton_self _⟩
    rw [children]
    exact hnot
  | @item keyword items i child hvalue hposition hchild =>
    have hmem := List.mem_of_getElem? hchild
    rcases hposition with hposition | hposition
    · exact ⟨_, mem_of_get? hvalue, .single, items, hposition, rfl, hmem⟩
    · exact ⟨_, mem_of_get? hvalue, .array, items, hposition, rfl, hmem⟩
  | @entry keyword name entries child hvalue hposition hchild =>
    exact ⟨_, mem_of_get? hvalue, .map, entries.map Prod.snd, hposition, rfl,
      List.mem_map_of_mem (f := Prod.snd) (mem_of_get? hchild)⟩

/-- Steps lead to the schemas in the value of a keyword. -/
lemma exists_subSchema_of_member {fields : List (String × Json)}
    (hkeys : (obj fields).distinctKeys = true) {field : String × Json} (hfield : field ∈ fields)
    {how : Position} {values : List Json} (hposition : position field.1 = some how)
    (hvalues : children how field.2 = .ok values) {child : Json} (hchild : child ∈ values) :
    ∃ steps, SubSchema (.obj fields) steps child := by
  have hvalue := get?_of_mem hkeys hfield
  rw [children.eq_def] at hvalues
  split at hvalues
  · next items hitems =>
    cases hvalues
    obtain ⟨i, hi⟩ := List.mem_iff_getElem?.mp hchild
    exact ⟨_, .item (hitems ▸ hvalue) (.inl hposition) hi⟩
  · next value hnot =>
    cases hvalues
    obtain rfl := List.mem_singleton.mp hchild
    exact ⟨_, .single hvalue hposition (by simpa using hnot)⟩
  · next items hitems =>
    cases hvalues
    obtain ⟨i, hi⟩ := List.mem_iff_getElem?.mp hchild
    exact ⟨_, .item (hitems ▸ hvalue) (.inr hposition) hi⟩
  · cases hvalues
  · next entries hentries =>
    cases hvalues
    obtain ⟨⟨name, entry⟩, hentry, rfl⟩ := List.mem_map.mp hchild
    have hkeys' := distinctKeys_field hkeys hfield
    rw [hentries] at hkeys'
    exact ⟨_, .entry (hentries ▸ hvalue) hposition (get?_of_mem hkeys' hentry)⟩
  · cases hvalues

/-! ## Enough fuel -/

/-- The schemas in a schema nest less deeply. -/
lemma depth_child_lt {fields : List (String × Json)} {field : String × Json}
    (hfield : field ∈ fields) {how : Position} {values : List Json}
    (hvalues : children how field.2 = .ok values) {child : Json} (hchild : child ∈ values) :
    child.depth < (obj fields).depth := by
  have hlt := depth_field_lt hfield
  rw [children.eq_def] at hvalues
  split at hvalues
  · next items hitems =>
    cases hvalues
    rw [hitems] at hlt
    exact (depth_item_lt hchild).trans hlt
  · cases hvalues
    rwa [List.mem_singleton.mp hchild]
  · next items hitems =>
    cases hvalues
    rw [hitems] at hlt
    exact (depth_item_lt hchild).trans hlt
  · cases hvalues
  · next entries hentries =>
    cases hvalues
    rw [hentries] at hlt
    obtain ⟨entry, hentry, rfl⟩ := List.mem_map.mp hchild
    exact (depth_field_lt hentry).trans hlt
  · cases hvalues

/-- More fuel than the nesting does not change what names are declared. -/
lemma collectAnchors_fuel {fuel fuel' : ℕ} {node : Json} (h : node.depth < fuel)
    (h' : node.depth < fuel') (isResourceRoot : Bool) :
    collectAnchors fuel node isResourceRoot = collectAnchors fuel' node isResourceRoot := by
  induction fuel generalizing fuel' node isResourceRoot with
  | zero => exact absurd h (Nat.not_lt_zero _)
  | succ fuel ih =>
    obtain ⟨fuel', rfl⟩ := Nat.exists_eq_succ_of_ne_zero (Nat.ne_zero_of_lt h')
    rw [collectAnchors.eq_def, collectAnchors.eq_def]
    dsimp only
    split
    · next fields =>
      have hsame : ∀ field ∈ fields, collectMemberAnchors
          (fun child => collectAnchors fuel child false) field.1 field.2 = collectMemberAnchors
          (fun child => collectAnchors fuel' child false) field.1 field.2 := by
        intro field hfield
        rw [collectMemberAnchors, collectMemberAnchors]
        split
        · rfl
        · split
          · rfl
          · next values hvalues =>
            refine List.flatMap_congr fun child hchild => ih ?_ ?_ false
            · have := depth_child_lt hfield hvalues hchild
              omega
            · have := depth_child_lt hfield hvalues hchild
              omega
      rw [List.flatMap_congr hsame]
    · rfl

/-- Steps that do the same for each item do the same. -/
lemma forM_congr {α : Type} {items : List α} {first second : α → Except Stop Unit}
    (h : ∀ item ∈ items, first item = second item) : forM items first = forM items second := by
  induction items with
  | nil => rfl
  | cons item items ih =>
    rw [List.forM_cons, List.forM_cons, h item (List.mem_cons_self ..),
      ih fun other hother => h other (List.mem_cons_of_mem _ hother)]

/-- More fuel than the nesting does not change the walk. -/
lemma walk_fuel {tool : String} {fuel fuel' : ℕ} {node : Json} (h : node.depth < fuel)
    (h' : node.depth < fuel') (resource : Resource) (isResourceRoot : Bool) :
    walk tool fuel node resource isResourceRoot = walk tool fuel' node resource isResourceRoot := by
  induction fuel generalizing fuel' node resource isResourceRoot with
  | zero => exact absurd h (Nat.not_lt_zero _)
  | succ fuel ih =>
    obtain ⟨fuel', rfl⟩ := Nat.exists_eq_succ_of_ne_zero (Nat.ne_zero_of_lt h')
    have hnew : Resource.new (fuel + 1) node = Resource.new (fuel' + 1) node := by
      rw [Resource.new, Resource.new, collectAnchors_fuel h h' true]
    rw [walk.eq_def, walk.eq_def]
    dsimp only
    split
    · rfl
    · next fields =>
      have hmembers : ∀ resource, walkMembers (fun child => walk tool fuel child resource false)
          tool (.obj fields) resource = walkMembers
          (fun child => walk tool fuel' child resource false) tool (.obj fields) resource := by
        intro resource
        have hsame : ∀ field ∈ fields, walkMember
            (fun child => walk tool fuel child resource false) tool field.1 field.2 = walkMember
            (fun child => walk tool fuel' child resource false) tool field.1 field.2 := by
          intro field hfield
          rw [walkMember, walkMember]
          split
          · rfl
          · split
            · rfl
            · next values hvalues =>
              refine forM_congr fun child hchild => ih ?_ ?_ resource false
              · have := depth_child_lt hfield hvalues hchild
                omega
              · have := depth_child_lt hfield hvalues hchild
                omega
        rw [walkMembers, walkMembers, forM_congr hsame]
      rw [hnew, hmembers, hmembers]
    · rfl

/-- The check of a tool's schema has come to an end. -/
def Settled (tool : String) (result : Except Stop Unit) : Prop :=
  result = .ok () ∨ ∃ reason, result = .error (invalid tool reason)

/-- Steps that come to an end for each item come to an end. -/
lemma settled_forM {α : Type} {tool : String} {items : List α} {step : α → Except Stop Unit}
    (h : ∀ item ∈ items, Settled tool (step item)) : Settled tool (forM items step) := by
  induction items with
  | nil => exact .inl rfl
  | cons item items ih =>
    rw [List.forM_cons]
    rcases h item (List.mem_cons_self ..) with hitem | ⟨reason, hitem⟩
    · rw [hitem]
      exact ih fun other hother => h other (List.mem_cons_of_mem _ hother)
    · rw [hitem]
      exact .inr ⟨reason, rfl⟩

/-- The check of references comes to an end. -/
lemma settled_checkReferences (tool : String) (node : Json) (resource : Resource) :
    Settled tool (checkReferences tool node resource) := by
  refine settled_forM fun keyword _ => ?_
  split
  · exact .inl rfl
  · split
    · exact .inl rfl
    · exact .inr ⟨_, rfl⟩
  · exact .inr ⟨_, rfl⟩

/-- **With enough fuel** the walk comes to an end. -/
lemma settled_walk {tool : String} {fuel : ℕ} {node : Json} (h : node.depth < fuel)
    (resource : Resource) (isResourceRoot : Bool) :
    Settled tool (walk tool fuel node resource isResourceRoot) := by
  induction fuel generalizing node resource isResourceRoot with
  | zero => exact absurd h (Nat.not_lt_zero _)
  | succ fuel ih =>
    rw [walk.eq_def]
    dsimp only
    split
    · exact .inl rfl
    · next fields =>
      have hmembers : ∀ resource, Settled tool (walkMembers
          (fun child => walk tool fuel child resource false) tool (.obj fields) resource) := by
        intro resource
        have hfields : Settled tool (forM fields fun field => walkMember
            (fun child => walk tool fuel child resource false) tool field.1 field.2) := by
          refine settled_forM fun field hfield => ?_
          rw [walkMember]
          split
          · exact .inl rfl
          · split
            · exact .inr ⟨_, rfl⟩
            · next values hvalues =>
              refine settled_forM fun child hchild => ih ?_ resource false
              have := depth_child_lt hfield hvalues hchild
              omega
        rw [walkMembers]
        rcases settled_checkReferences tool (.obj fields) resource with hcheck | ⟨reason, hcheck⟩
        · rw [hcheck]
          exact hfields
        · rw [hcheck]
          exact .inr ⟨reason, rfl⟩
      split
      · exact hmembers _
      · split
        · exact .inr ⟨_, rfl⟩
        · exact hmembers _
    · exact .inr ⟨_, rfl⟩

/-! ## Accepted documents -/

/-- Steps that succeed for all items succeed for each. -/
lemma forM_eq_ok {α : Type} {items : List α} {step : α → Except Stop Unit}
    (h : forM items step = .ok ()) : ∀ item ∈ items, step item = .ok () := by
  induction items with
  | nil => simp
  | cons item items ih =>
    rw [List.forM_cons] at h
    cases hitem : step item with
    | error stop =>
      rw [hitem] at h
      cases h
    | ok =>
      rw [hitem] at h
      exact List.forall_mem_cons.mpr ⟨hitem, ih h⟩

/-- A schema has been walked in a resource. -/
def Walked (tool : String) (node : Json) (resource : Resource) : Prop :=
  (∃ value, node = .bool value) ∨
    (∃ fields, node = .obj fields) ∧ ∃ fuel, walkMembers
      (fun child => walk tool fuel child resource false) tool node resource = .ok ()

/-- A walk that succeeds has walked the schema, in its own resource if it is the root of one. -/
lemma exists_walked {tool : String} {fuel : ℕ} {node : Json} {resource : Resource}
    {isResourceRoot : Bool} (h : walk tool fuel node resource isResourceRoot = .ok ()) :
    ∃ n, Walked tool node
      (if !isResourceRoot && containsKey node "$id" then .new n node else resource) := by
  cases fuel with
  | zero => cases h
  | succ fuel =>
    refine ⟨fuel + 1, ?_⟩
    rw [walk.eq_def] at h
    dsimp only at h
    split at h
    · next value => exact .inl ⟨value, rfl⟩
    · next fields =>
      refine .inr ⟨⟨fields, rfl⟩, fuel, ?_⟩
      split at h
      · next hid => rw [if_pos hid]; exact h
      · next hid =>
        rw [if_neg hid]
        split at h
        · cases h
        · exact h
    · cases h

namespace Walked

variable {tool : String} {node : Json} {resource : Resource}

/-- The schemas in a walked schema have been walked. -/
lemma walk_child (h : Walked tool node resource) {steps : List Step} {child : Json}
    (hchild : SubSchema node steps child) : ∃ fuel, walk tool fuel child resource false = .ok () := by
  obtain ⟨value, rfl⟩ | ⟨⟨fields, rfl⟩, fuel, hwalk⟩ := h
  · cases hchild with
    | single hvalue => cases hvalue
    | item hvalue => cases hvalue
    | entry hvalue => cases hvalue
  · refine ⟨fuel, ?_⟩
    obtain ⟨field, hfield, how, values, hposition, hvalues, hmem⟩ :=
      exists_member_of_subSchema hchild
    rw [walkMembers] at hwalk
    cases hcheck : checkReferences tool (.obj fields) resource with
    | error stop =>
      rw [hcheck] at hwalk
      cases hwalk
    | ok =>
      rw [hcheck] at hwalk
      have hmember := forM_eq_ok hwalk field hfield
      rw [walkMember, hposition] at hmember
      dsimp only at hmember
      rw [hvalues] at hmember
      exact forM_eq_ok hmember child hmem

/-- The references of a walked schema are texts that resolve. -/
lemma resolves (h : Walked tool node resource) {keyword : String}
    (hkeyword : keyword ∈ referenceKeywords) {value : Json} (hvalue : node.get? keyword = some value) :
    ∃ reference, value = .str reference ∧ resource.resolves reference = true := by
  obtain ⟨value, rfl⟩ | ⟨⟨fields, rfl⟩, fuel, hwalk⟩ := h
  · cases hvalue
  · rw [walkMembers] at hwalk
    cases hcheck : checkReferences tool (.obj fields) resource with
    | error stop =>
      rw [hcheck] at hwalk
      cases hwalk
    | ok =>
      have hreference := forM_eq_ok hcheck keyword hkeyword
      rw [hvalue] at hreference
      split at hreference
      · next hnone => cases hnone
      · next reference hsome =>
        cases hsome
        split at hreference
        · next hresolves => exact ⟨reference, rfl, hresolves⟩
        · cases hreference
      · cases hreference

end Walked

/-- **Every schema of an accepted document** has been walked in its resource.

**Proof sketch.** Induction on the way from the root. A schema with an identifier is walked in a
resource of its own, whose root is the schema itself; any other one in the resource of the schema
that it stands in. -/
lemma SchemaPlace.walked {tool : String} {document : Json} {fuel : ℕ}
    (h : validateSchemaDocument fuel tool document = .ok ()) {place : Place}
    (hplace : SchemaPlace document place) :
    ∃ n root, document.at? place.base = some root ∧ Walked tool place.node (.new n root) := by
  induction hplace with
  | root =>
    obtain ⟨n, hwalked⟩ := exists_walked h
    exact ⟨fuel, document, rfl, hwalked⟩
  | @sub place steps child hplace hchild ih =>
    obtain ⟨n, root, hroot, hwalked⟩ := ih
    obtain ⟨fuel, hwalk⟩ := hwalked.walk_child hchild
    obtain ⟨m, hwalked'⟩ := exists_walked hwalk
    rw [Bool.not_false, Bool.true_and] at hwalked'
    rw [Place.sub]
    dsimp only
    by_cases hid : containsKey child "$id" = true
    · rw [if_pos hid] at hwalked' ⊢
      have hat := (SchemaPlace.sub hplace hchild).at?_path
      exact ⟨m, child, hat, hwalked'⟩
    · rw [if_neg hid] at hwalked' ⊢
      exact ⟨n, root, hroot, hwalked'⟩

/-- The schemas of a document with distinct keys have distinct keys. -/
lemma SchemaPlace.distinctKeys {document : Json} (hkeys : document.distinctKeys = true)
    {place : Place} (h : SchemaPlace document place) : place.node.distinctKeys = true := by
  induction h with
  | root => exact hkeys
  | @sub place steps child hplace hchild ih =>
    have hget : ∀ {value found : Json} {name : String}, value.distinctKeys = true →
        value.get? name = some found → found.distinctKeys = true := by
      intro value found name hvalue hfound
      cases value with
      | obj fields => exact distinctKeys_field hvalue (mem_of_get? hfound)
      | null | bool | num | str | arr => cases hfound
    cases hchild with
    | single hvalue => exact hget ih hvalue
    | item hvalue _ hchild =>
      exact distinctKeys_item (hget ih hvalue) (List.mem_of_getElem? hchild)
    | entry hvalue _ hchild => exact hget (hget ih hvalue) hchild

/-- **A name that was collected** is declared by a schema of the resource.

**Proof sketch.** Induction on the fuel. The names of a schema are its own or those of the schemas in
it; one of these with an identifier would have none. -/
lemma SchemaPlace.exists_declared {document : Json} (hkeys : document.distinctKeys = true) {fuel : ℕ}
    {place : Place} (hplace : SchemaPlace document place) {isResourceRoot : Bool} {anchor : String}
    (h : anchor ∈ collectAnchors fuel place.node isResourceRoot) :
    ∃ target, SchemaPlace document target ∧ target.base = place.base ∧
      anchor ∈ declared target.node := by
  induction fuel generalizing place isResourceRoot with
  | zero => cases h
  | succ fuel ih =>
    rw [collectAnchors.eq_def] at h
    dsimp only at h
    split at h
    · next fields hfields =>
      split at h
      · cases h
      · rcases List.mem_append.mp h with h | h
        · exact ⟨place, hplace, rfl, h⟩
        · obtain ⟨field, hfield, h⟩ := List.mem_flatMap.mp h
          rw [collectMemberAnchors] at h
          split at h
          · cases h
          · next how hposition =>
            split at h
            · cases h
            · next values hvalues =>
              obtain ⟨child, hchild, h⟩ := List.mem_flatMap.mp h
              have hobj := hplace.distinctKeys hkeys
              rw [hfields] at hobj
              obtain ⟨steps, hsteps⟩ :=
                exists_subSchema_of_member hobj hfield hposition hvalues hchild
              rw [← hfields] at hsteps
              obtain ⟨target, htarget, hbase, hname⟩ := ih (hplace.sub hsteps) h
              refine ⟨target, htarget, hbase.trans ?_, hname⟩
              have hid : containsKey child "$id" = false := by
                by_contra hid
                rw [Bool.not_eq_false] at hid
                cases fuel with
                | zero => cases h
                | succ fuel =>
                  rw [collectAnchors.eq_def] at h
                  dsimp only at h
                  split at h
                  · rw [hid] at h
                    cases h
                  · cases h
              rw [Place.sub, hid]
              rfl
    · cases h

/-- A local reference that resolves leads to a value of the document. -/
lemma SchemaPlace.exists_target {document : Json} (hkeys : document.distinctKeys = true)
    {place : Place} (hplace : SchemaPlace document place) {n : ℕ} {root : Json}
    (hroot : document.at? place.base = some root) {fragment : String}
    (h : (Resource.new n root).resolves ("#" ++ fragment) = true) :
    ∃ path node, Target document place fragment path node ∧ document.at? path = some node := by
  rw [Resource.resolves, Text.stripPrefix_append] at h
  dsimp only at h
  split at h
  · next hempty =>
    subst hempty
    exact ⟨place.base, root, .root hroot, hroot⟩
  · next hne =>
    split at h
    · next hslash =>
      obtain ⟨node, hnode⟩ := Option.isSome_iff_exists.mp h
      obtain ⟨steps, hsteps, hat⟩ := exists_locate_of_pointer hne hnode
      refine ⟨place.base ++ steps, node, .pointer hslash hroot hsteps hat, ?_⟩
      rw [at?_append, hroot, Option.bind_some]
      exact hat
    · next hslash =>
      rw [List.contains_iff_mem] at h
      obtain ⟨root', hbase⟩ := hplace.base
      have hsame : some root' = some root := hbase.at?_path.symm.trans hroot
      cases hsame
      obtain ⟨target, htarget, htargetBase, hname⟩ := hbase.exists_declared hkeys h
      exact ⟨target.path, target.node, .anchor hslash hne htarget htargetBase hname,
        htarget.at?_path⟩

/-- **An accepted schema is closed**: on every way from schema to schema, along known keywords and
local references, each position exists and holds an object or a boolean, and each reference on it is
a text that leads to a value of the document if it is local, and to a schema again unless it is a
pointer. And on every document the check comes to an end.

**Proof sketch.** Every position on the way is one that known keywords lead to, so the walk has come
by in its resource (`SchemaPlace.walked`). There its references have been resolved: a pointer by
what it finds, a name by a schema that declares it (`SchemaPlace.exists_target`). -/
theorem schema_document_closed {tool : String} {document : Json}
    (hkeys : document.distinctKeys = true) :
    (∀ fuel, document.depth < fuel →
      validateSchemaDocument fuel tool document =
          validateSchemaDocument (document.depth + 1) tool document ∧
        Settled tool (validateSchemaDocument fuel tool document)) ∧
      ∀ fuel, validateSchemaDocument fuel tool document = .ok () →
        ∀ start place, SchemaPlace document start →
          Relation.ReflTransGen (Follows document) start place →
            document.at? place.path = some place.node ∧
              (place.node.isObject = true ∨ ∃ value, place.node = .bool value) ∧
              ∀ keyword ∈ referenceKeywords, ∀ value, place.node.get? keyword = some value →
                ∃ reference, value = .str reference ∧ ∀ fragment, reference = "#" ++ fragment →
                  ∃ path node, Target document place fragment path node ∧
                    document.at? path = some node ∧
                    (fragment.toList.head? ≠ some '/' →
                      ∃ base, SchemaPlace document ⟨base, path, node⟩) := by
  refine ⟨fun fuel hfuel => ⟨?_, settled_walk hfuel _ _⟩,
    fun fuel hvalid start place hstart hway => ?_⟩
  · have hsame := collectAnchors_fuel hfuel (Nat.lt_succ_self document.depth) true
    rw [validateSchemaDocument, validateSchemaDocument, Resource.new, Resource.new, hsame]
    exact walk_fuel hfuel (Nat.lt_succ_self _) _ _
  · have hplace := hstart.reached hway
    obtain ⟨n, root, hroot, hwalked⟩ := hplace.walked hvalid
    refine ⟨hplace.at?_path, ?_, fun keyword hkeyword value hvalue => ?_⟩
    · obtain hbool | ⟨⟨fields, hfields⟩, -⟩ := hwalked
      · exact .inr hbool
      · exact .inl (by rw [hfields]; rfl)
    · obtain ⟨reference, hreference, hresolves⟩ := hwalked.resolves hkeyword hvalue
      refine ⟨reference, hreference, fun fragment hfragment => ?_⟩
      rw [hfragment] at hresolves
      obtain ⟨path, node, htarget, hnode⟩ := hplace.exists_target hkeys hroot hresolves
      exact ⟨path, node, htarget, hnode, hplace.of_target htarget⟩

/-- A schema of arrays of the schema that it stands in. -/
def loopSchema : Json :=
  .obj [("$anchor", .str "loop"), ("items", .obj [("$ref", .str "#/$defs/a")])]

/-- A schema whose references lead around in a circle, by name and by pointer. -/
def circularSchema : Json := .obj [("$defs", .obj [("a", loopSchema)]), ("$ref", .str "#loop")]

/-- Around the circle: along the name to the schema that declares it, and on to its items, which
refer to it again. -/
theorem schema_document_closed_circular :
    circularSchema.at? [.key "$defs", .key "a", .key "items"] =
        some (.obj [("$ref", .str "#/$defs/a")]) ∧
      ∃ path node, Target circularSchema ⟨[], [.key "$defs", .key "a", .key "items"],
        .obj [("$ref", .str "#/$defs/a")]⟩ "/$defs/a" path node := by
  let loop : Place := ⟨[], [.key "$defs", .key "a"], loopSchema⟩
  let items : Place :=
    ⟨[], [.key "$defs", .key "a", .key "items"], .obj [("$ref", .str "#/$defs/a")]⟩
  have hroot : SchemaPlace circularSchema ⟨[], [], circularSchema⟩ := .root
  have hentry : SubSchema circularSchema [.key "$defs", .key "a"] loopSchema := .entry rfl rfl rfl
  have hloop : SchemaPlace circularSchema loop := hroot.sub hentry
  have hreference : LocalReference circularSchema "loop" := ⟨"$ref", by decide, rfl⟩
  have hname : Follows circularSchema ⟨[], [], circularSchema⟩ loop :=
    .reference hreference (.anchor (by decide) (by decide) hloop rfl (by decide)) hloop
  have hsingle : SubSchema loopSchema [.key "items"] (.obj [("$ref", .str "#/$defs/a")]) :=
    .single rfl rfl (by simp)
  have hitems : Follows circularSchema loop (loop.sub [.key "items"] _) := .keyword hsingle
  have hvalid : validateSchemaDocument 5 "search" circularSchema = .ok () := rfl
  obtain ⟨hat, -, hreferences⟩ := (schema_document_closed (by decide)).2 5 hvalid _ items hroot
    (.tail (.tail .refl hname) hitems)
  obtain ⟨reference, hreference, htarget⟩ := hreferences "$ref" (by decide) _ rfl
  cases hreference
  obtain ⟨path, node, htarget, -⟩ := htarget "/$defs/a" rfl
  exact ⟨hat, path, node, htarget⟩

/-- A schema whose reference finds a number. -/
def straySchema : Json := .obj [("$ref", .str "#/const"), ("const", .num "5")]

/-- **A pointer may leave the schemas**: `#/const` is accepted on a schema, and leads to a number. -/
theorem pointer_leaves_schemas :
    validateSchemaDocument 2 "search" straySchema = .ok () ∧
      SchemaPlace straySchema ⟨[], [], straySchema⟩ ∧ LocalReference straySchema "/const" ∧
      Target straySchema ⟨[], [], straySchema⟩ "/const" [.key "const"] (.num "5") ∧
      ¬ ((Json.num "5").isObject = true ∨ ∃ value, Json.num "5" = .bool value) := by
  have hroot : straySchema.at? [] = some straySchema := rfl
  refine ⟨by rfl, .root, ⟨"$ref", by decide, rfl⟩, .pointer (by decide) hroot (by decide) rfl, ?_⟩
  rintro (h | ⟨value, h⟩)
  · cases h
  · cases h

end Comsat.ToolSchema
