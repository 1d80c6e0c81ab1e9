import Zerogw.Library.Grouped
import Zerogw.Library.Heap
import Zerogw.Basic

/-!
# Output mappings

A backend can route the messages of a connection by their prefix. Each mapping is an `output_t` that
is in two lists, the outputs of its connection and the outputs of the named output it points to.
-/

namespace Zerogw

abbrev OutputId := Nat

/-- `output_t`; `socket` is one of the named outputs of the route. -/
structure Output where
  socket : SockId
  connection : HybiId
  pre : Bytes
  deriving DecidableEq

/-- All output mappings; `clients h` is `hybi->outputs`, `attached k` is `_int.outputs` of the named
output. -/
structure Outputs where
  out : Heap Output
  clients : HybiId → List OutputId
  attached : SockId → List OutputId

namespace Outputs

def init : Outputs := ⟨.empty, fun _ => [], fun _ => []⟩

def hasPrefix (pre : Bytes) (O : Outputs) (o : OutputId) : Bool :=
  (O.out.get o).any fun e => e.pre == pre

def hasSocket (k : SockId) (O : Outputs) (o : OutputId) : Bool :=
  (O.out.get o).any fun e => e.socket == k

/-- `LIST_REMOVE` from both lists. -/
def unlink (o : OutputId) (e : Output) (O : Outputs) : Outputs :=
  { O with
    clients := Function.update O.clients e.connection ((O.clients e.connection).erase o)
    attached := Function.update O.attached e.socket ((O.attached e.socket).erase o) }

/-- Put an output into both lists, behind `prev_output` if there is one, else at the heads. -/
def link (o : OutputId) (e : Output) (prev : Option OutputId) (O : Outputs) : Outputs :=
  let insert (l : List OutputId) : List OutputId :=
    match prev with
    | some p => insertAfter p o l
    | none => o :: l
  { O with
    clients := Function.update O.clients e.connection (insert (O.clients e.connection))
    attached := Function.update O.attached e.socket (insert (O.attached e.socket)) }

/-- The scan in `add_output`: the last entry for the prefix, and the last one for the socket. -/
def scan (pre : Bytes) (k : SockId) (h : HybiId) (O : Outputs) :
    Option OutputId × Option OutputId :=
  (O.clients h).foldl
    (fun (oldPrefix, prevOutput) cur =>
      (if O.hasPrefix pre cur then some cur else oldPrefix,
        if O.hasSocket k cur then some cur else prevOutput))
    (none, none)

/-- `add_output` in `websock_process`, once connection and named output are found. -/
def addOutput (h : HybiId) (pre : Bytes) (k : SockId) (O : Outputs) : Outputs :=
  match O.scan pre k h with
  | (none, prev) =>
    let o := O.out.next
    let e : Output := ⟨k, h, pre⟩
    link o e prev { O with out := O.out.alloc e }
  | (some old, prev) =>
    match O.out.get old with
    | none => O
    | some e =>
      if e.socket = k then O
      else
        let O := O.unlink old e
        link old { e with socket := k } prev
          { O with out := O.out.modify old fun e => { e with socket := k } }

/-- Take an output out of both lists and free it. -/
def remove (o : OutputId) (O : Outputs) : Outputs :=
  match O.out.get o with
  | none => O
  | some e => { O.unlink o e with out := O.out.free o }

/-- `del_output` in `websock_process`, once the connection is found. -/
def delOutput (h : HybiId) (pre : Bytes) (O : Outputs) : Outputs :=
  match (O.clients h).find? (O.hasPrefix pre) with
  | some o => O.remove o
  | none => O

/-- The removals of the loop of `hybi_stop` over the outputs of the connection. -/
def stop (h : HybiId) (O : Outputs) : Outputs := (O.clients h).foldl (fun O o => O.remove o) O

/-- The named output of an entry. -/
def socketOf (O : Outputs) (o : OutputId) : Option SockId := (O.out.get o).map Output.socket

def connectionOf (O : Outputs) (o : OutputId) : Option HybiId := (O.out.get o).map Output.connection

/-! ### What the mappings stand for -/

/-- Which named output the messages of a connection with a given prefix go to. -/
abbrev Mapping := HybiId → Bytes → Option SockId

/-- The mapping held by the entries. -/
def mapping (O : Outputs) : Mapping := fun h pre =>
  ((O.clients h).find? (O.hasPrefix pre)).bind O.socketOf

namespace Mapping

def insert (h : HybiId) (pre : Bytes) (k : SockId) (M : Mapping) : Mapping :=
  Function.update M h (Function.update (M h) pre (some k))

def delete (h : HybiId) (pre : Bytes) (M : Mapping) : Mapping :=
  Function.update M h (Function.update (M h) pre none)

def stop (h : HybiId) (M : Mapping) : Mapping := Function.update M h fun _ => none

end Mapping

end Outputs

end Zerogw
