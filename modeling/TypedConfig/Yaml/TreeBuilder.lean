/-
# Building a tree from events

The events of a document are folded into a tree. The builder holds the containers
that are not finished yet, the innermost first, and stops at the first thing that a
tree cannot express. It takes events in any order, whether or not they nest.

Key definitions: `Container`, `TreeBuilder`, `TreeBuilder.receive`, `buildTree`.
-/
import TypedConfig.Entries
import TypedConfig.ParseError
import TypedConfig.Yaml.Event
import TypedConfig.Yaml.ScalarType

namespace TypedConfig
namespace Yaml

/-- The position of a mark in a source. Positions count lines from nought. -/
def Mark.position (source : String) (mark : Mark) : Position :=
  .at (mark.line - 1) mark.column source

/-- A container that may still grow. -/
inductive Container where
  /-- A sequence and its elements so far, the last one first. -/
  | sequence (place : Place) (elements : List Node)
  /-- A mapping, its entries so far, and a key that waits for its value. -/
  | mapping (place : Place) (entries : Entries Node) (key? : Option String)

/-- The path of what comes next into the container. -/
def Container.nextPath : Container → String
  | .sequence place elements => elementPath place.path elements.length
  | .mapping place _ (some key) => childPath place.path key
  | .mapping place _ none => place.path

/-- Puts a finished node into the container. A mapping drops it unless a key waits. -/
def Container.add (node : Node) : Container → Container
  | .sequence place elements => .sequence place (node :: elements)
  | .mapping place entries (some key) => .mapping place (entries.insert key node) none
  | .mapping place entries none => .mapping place entries none

/-- The node that a finished container is. -/
def Container.node : Container → Node
  | .sequence place elements => .array elements.reverse place
  | .mapping place entries _ => .map entries place

/-- The state of building a tree. -/
structure TreeBuilder where
  source : String
  unfinished : List Container
  root? : Option Node
  /-- The first thing that a tree cannot express. -/
  error? : Option ParseError

namespace TreeBuilder

/-- The builder before the first event. -/
def start (source : String) : TreeBuilder := ⟨source, [], none, none⟩

/-- Where what comes next is, if it begins at `mark`. -/
def nextPlace (builder : TreeBuilder) (mark : Mark) : Place :=
  ⟨mark.position builder.source,
    match builder.unfinished with
    | container :: _ => container.nextPath
    | [] => rootPath⟩

/-- Puts a finished node where it belongs. The first one outside of all containers is the
root. -/
def complete (builder : TreeBuilder) (node : Node) : TreeBuilder :=
  match builder.unfinished with
  | container :: outer => { builder with unfinished := container.add node :: outer }
  | [] => { builder with root? := builder.root?.or (some node) }

/-- Stops at something that a tree cannot express. -/
def stop (builder : TreeBuilder) (error : ParseError) : TreeBuilder :=
  { builder with error? := some error }

/-- Stops at a feature that trees do not have. -/
def stopUnsupported (builder : TreeBuilder) (message : String) (mark : Mark) : TreeBuilder :=
  builder.stop (.unsupported message (mark.position builder.source))

/-- Receives a scalar, which is a key if the innermost container is a mapping without a
waiting one. -/
def receiveScalar (builder : TreeBuilder) (mark : Mark) (style : ScalarStyle) (text : String) :
    TreeBuilder :=
  match builder.unfinished with
  | .mapping place entries none :: outer =>
    if (entries.lookup text).isSome then
      builder.stop (.duplicateKey text place.path (mark.position builder.source))
    else { builder with unfinished := .mapping place entries (some text) :: outer }
  | _ =>
    let place := builder.nextPlace mark
    builder.complete (if style = .plain then plainNode text place else .string text place)

/-- Receives the beginning of a container, which cannot be a key. -/
def receiveStart (builder : TreeBuilder) (mark : Mark) (container : Place → Container) :
    TreeBuilder :=
  match builder.unfinished with
  | .mapping _ _ none :: _ =>
    builder.stopUnsupported "only scalar mapping keys are supported" mark
  | _ => { builder with unfinished := container (builder.nextPlace mark) :: builder.unfinished }

/-- Receives the end of a container. -/
def receiveEnd (builder : TreeBuilder) : TreeBuilder :=
  match builder.unfinished with
  | container :: outer => { builder with unfinished := outer }.complete container.node
  | [] => builder

/-- Receives an event. -/
def receive (builder : TreeBuilder) (event : Event) : TreeBuilder :=
  match builder.error?, event with
  | some _, _ => builder
  | none, .scalar mark style text => builder.receiveScalar mark style text
  | none, .reference mark => builder.stopUnsupported "YAML aliases are not supported" mark
  | none, .sequenceStart mark => builder.receiveStart mark (.sequence · [])
  | none, .mappingStart mark => builder.receiveStart mark (.mapping · [] none)
  | none, .sequenceEnd | none, .mappingEnd => builder.receiveEnd
  | none, .streamStart | none, .streamEnd | none, .documentStart | none, .documentEnd => builder

/-- The tree that was built. -/
def finish (builder : TreeBuilder) : Except ParseError Node :=
  match builder.error?, builder.root? with
  | some error, _ => .error error
  | none, some root => .ok root
  | none, none => .error (.empty builder.source)

end TreeBuilder

/-- The tree of a row of events. -/
def buildTree (source : String) (events : List Event) : Except ParseError Node :=
  (events.foldl TreeBuilder.receive (.start source)).finish

end Yaml
end TypedConfig
