import ChatClient.Failure

/-!
# Tools from listings

Tool servers list their tools as objects with a name, a description and an input schema.
Models choose tools by their descriptions, so a tool without one is refused.
-/

namespace ChatClient

/-- The schema of a listed tool: under the newer name, else under the older, else empty. -/
def listedSchema (listing : Json) : Json :=
  let given (name : String) : Option Json := (listing.field? name).filter Json.isGiven
  ((given "inputSchema").or (given "input_schema")).getD (.object [])

/-- The parts of a schema that are passed on. Of the required names, those that are texts
count. -/
def schemaParameters (schema : Entries) : Json :=
  .object ([("type", (schema.get? "type").getD (.text "object")),
    ("properties", (schema.get? "properties").getD (.object []))] ++
    match schema.get? "required" with
    | some (.list names) =>
      [("required", .list (names.filter fun n => n.text?.isSome))]
    | _ => [])

/-- The tool that a listing describes. -/
def Tool.ofListing (listing : Json) : Except Failure Tool :=
  if !listing.isObject then .error (.outside .missingAttribute)
  else
  let name := (((listing.field? "name").filter Json.isGiven).map Json.shown).getD ""
  match (listing.field? "description").filter Json.isGiven with
  | none => .error (.ofRequestFault ⟨.description, .undocumentedTool name⟩)
  | some description =>
    match listedSchema listing with
    | .object schema => .ok
        { name := .text name
          description := .text description.shown
          parameters := schemaParameters schema }
    | _ => .error (.outside .missingAttribute)

end ChatClient
