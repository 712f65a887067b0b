import Verdict.Error
import Verdict.Json.Reader

/-!
Contexts and the paths into them. A path is a chain of segments, and each segment is looked up by
the first accessor that knows it. Without a context, or with an empty one, no path has a value.
-/
namespace Verdict

structure Context where
  data : Json

namespace Context

def ofText? (t : Text) : Option Context := (Json.ofText? t).map Context.mk

def isEmpty (context : Context) : Bool := context.data.isEmpty

end Context

structure Accessor where
  name : Text
  access : Json → Text → Option Json

namespace Accessor

def length : Accessor where
  name := "attribute".toList
  access value segment :=
    if segment = "length".toList then
      match value with
      | .array items => some (.number (.int items.length))
      | .str content => some (.number (.int content.length))
      | _ => none
    else none

def key : Accessor where
  name := "key".toList
  access value segment :=
    match value with
    | .object members => Table.find? segment members
    | _ => none

end Accessor

abbrev Resolver := List Accessor

namespace Resolver

def standard : Resolver := [.length, .key]

def step (chain : Resolver) (value : Json) (segment : Text) : Option Json :=
  chain.findSome? fun accessor => accessor.access value segment

def follow (chain : Resolver) : Json → List Text → Option Json
  | value, [] => some value
  | value, segment :: rest => (chain.step value segment).bind fun next => chain.follow next rest

def resolve (chain : Resolver) (context : Option Context) (path : Text) : Except Error Json :=
  match context with
  | none => .error (.missing (.noContext path))
  | some context =>
    if context.isEmpty then .error (.missing (.noContext path))
    else
      match chain.follow context.data (path.splitOn '.') with
      | some value => .ok value
      | none => .error (.missing (.noValue path))

mutual
/-- The value of an operand. A real that is not finite has no JSON number and counts as null. -/
def expand (chain : Resolver) (context : Option Context) : Operand → Except Error Json
  | .int i => .ok (.number (.int i.toInt))
  | .real (.finite x) => .ok (.number (.real x))
  | .real _ => .ok .null
  | .str content => .ok (.str content)
  | .bool b => .ok (.bool b)
  | .nothing => .ok .null
  | .path p => chain.resolve context p
  | .list items => (expandItems chain context items).map .array

def expandItems (chain : Resolver) (context : Option Context) :
    List Operand → Except Error (List Json)
  | [] => .ok []
  | item :: rest => do return (← expand chain context item) :: (← expandItems chain context rest)
end

end Resolver
end Verdict
