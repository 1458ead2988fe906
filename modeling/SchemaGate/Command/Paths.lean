import SchemaGate.Command.Run

/-!
# What a command reads and writes

The paths that a command may read and write are known from its words, so that the part of the file
system it needs can be looked at beforehand.
-/

namespace SchemaGate.Command

/-- The paths from which a command reads schemas and scenarios. -/
def Task.inputs : Task → List String
  | .check options => [options.baseline, options.candidate]
  | .suite directories _ => directories
  | .index path _ => [path]
  | .lock path _ => [path]

/-- The paths to which a command writes. -/
def Task.outputs : Task → List String
  | .check options => options.output :: options.markdown.toList
  | .suite _ output => output.toList
  | .index _ _ => []
  | .lock _ output => [output]

/-- The paths from which a command reads. -/
def Invocation.inputs (invocation : Invocation) : List String :=
  invocation.config.getD defaultConfig :: invocation.task.inputs

/-- The place to which a name leads from a place, if no link is on the way. -/
def nextPlace (place : List String) (name : String) : List String :=
  if name = "." then place else if name = ".." then place.dropLast else place ++ [name]

/-- The places that are passed when names are followed from a place. -/
def placesAlong (place : List String) : List String → List (List String)
  | [] => [place]
  | name :: names => place :: placesAlong (nextPlace place name) names

/-- The places that are passed when a path is followed from a working directory, the last one being
that of the path. -/
def placesOfPath (here : List String) (path : String) : List (List String) :=
  placesAlong (if Text.startsWith ['/'] path.toList then [] else here) (Text.segments '/' path)

/-- Whether text is coloured: always if that is forced, or else on a terminal unless colours are
switched off. The settings are texts of which only `0` means no. -/
def wantsColours (forced disabled preferred : Option String) (onTerminal : Bool) : Bool :=
  if forced.any (· ≠ "0") then true
  else if disabled.isSome then false
  else preferred.all (· ≠ "0") && onTerminal

end SchemaGate.Command
