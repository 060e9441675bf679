import Ps2Client.Ps2netfs.Commands

/-!
# Sequences of ps2netfs commands

A server answers each packet it gets with one response. Responses are matched to commands by their
order alone.
-/

namespace Ps2netfs

open CMemory Network

/-- A response packet, and for `read` the data behind it. -/
structure Answer where
  response : List Byte
  data : List Byte
  deriving DecidableEq, Repr

def Answer.bytes (a : Answer) : List Byte := a.response ++ a.data

/-- The `result` field of a response. -/
def Answer.result (a : Answer) : Int := (net32 a.response 6).toInt

/-- A response struct of the command, with as many data as the result of a `read` says, and not more
than it asked for. -/
def Answer.IsTo (a : Answer) (c : Command) : Prop :=
  a.response.length = c.responseSize ∧
    match c with
    | .read _ size => (a.data.length : Int) = max a.result 0 ∧ a.result ≤ size.toInt
    | _ => a.data = []

/-- What a command tells its caller of an answer: the result, and the data that come with it. -/
def Command.told (c : Command) (a : Answer) : Int × List Byte :=
  (a.result, match c with
    | .read .. => a.data
    | _ => c.saved a.response)

variable (e : Endian)

/-- Calls one after the other, each with what was on its stack. -/
def runCalls : List (Command × List Byte) → Socket → List (Int × List Byte) × Socket
  | [], s => ([], s)
  | (c, stack) :: calls, s =>
    let (result, stored, s) := c.call e stack s
    let (results, s) := runCalls calls s
    ((result, stored) :: results, s)

/-- The calls that send a packet. -/
def sending (calls : List (Command × List Byte)) : List (Command × List Byte) :=
  calls.filter fun (c, _) => ¬ c.Refused

/-- What the calls tell their caller, when `answers` are the answers to those that send a packet. -/
def toldOf : List (Command × List Byte) → List Answer → List (Int × List Byte)
  | [], _ => []
  | (c, _) :: calls, answers =>
    if c.Refused then (-1, []) :: toldOf calls answers
    else match answers with
      | [] => []
      | a :: answers => c.told a :: toldOf calls answers

/-- Everything the calls send. -/
def sentBy (calls : List (Command × List Byte)) : List Byte :=
  ((sending calls).map fun (c, stack) => c.packet e stack ++ c.data).flatten

end Ps2netfs
