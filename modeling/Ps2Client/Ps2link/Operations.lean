import Ps2Client.Ps2link.Requests

/-!
# Requests as operations

What the request thread does with a packet, without the packet: a packet of a known number is
decoded into an operation with its arguments, and the operation is performed. The request thread
refines this (`dispatch_operation`).
-/

namespace Ps2link

open CMemory Network Utility

/-- The kinds of request the client serves. -/
inductive Kind where
  | «open» | close | read | write | lseek | opendir | closedir | readdir | remove | mkdir | rmdir
  | getstat
  deriving DecidableEq, Repr

def Kind.all : List Kind :=
  [.open, .close, .read, .write, .lseek, .opendir, .closedir, .readdir, .remove, .mkdir, .rmdir,
    .getstat]

/-- The number of the request packet. -/
def Kind.request : Kind → Word
  | .open => REQUEST_OPEN
  | .close => REQUEST_CLOSE
  | .read => REQUEST_READ
  | .write => REQUEST_WRITE
  | .lseek => REQUEST_LSEEK
  | .opendir => REQUEST_OPENDIR
  | .closedir => REQUEST_CLOSEDIR
  | .readdir => REQUEST_READDIR
  | .remove => REQUEST_REMOVE
  | .mkdir => REQUEST_MKDIR
  | .rmdir => REQUEST_RMDIR
  | .getstat => REQUEST_GETSTAT

/-- The kind of request with a given packet number. -/
def Kind.ofNumber (number : Word) : Option Kind := Kind.all.find? fun k => k.request == number

/-- The size of the struct a handler overlays on the packet. -/
def Kind.structSize : Kind → Nat
  | .open | .opendir | .mkdir => 266
  | .remove | .rmdir | .getstat => 262
  | .lseek => 18
  | .read | .write => 14
  | .close | .closedir | .readdir => 10

/-- The size of the struct of the response. -/
def Kind.responseSize : Kind → Nat
  | .readdir => 306
  | .getstat => 50
  | .read => 14
  | .open | .close | .write | .lseek | .opendir | .closedir | .remove | .mkdir | .rmdir => 10

/-- A request with its arguments: paths and open flags as the host gets them, integers as they are
read from the packet. -/
inductive Operation where
  | «open» (path : List Byte) (flags : Word)
  | close (fd : Word)
  | read (fd size : Word)
  | write (fd size : Word)
  | lseek (fd offset whence : Word)
  | opendir (path : List Byte)
  | closedir (dd : Word)
  | readdir (dd : Word)
  | remove (path : List Byte)
  | mkdir (path : List Byte) (mode : Word)
  | rmdir (path : List Byte)
  | getstat (path : List Byte)
  deriving DecidableEq, Repr

/-- The descriptor that a request names. -/
def Operation.descriptor : Operation → Option Int
  | .close fd | .read fd _ | .write fd _ | .lseek fd .. => some fd.toInt
  | .open .. | .opendir _ | .closedir _ | .readdir _ | .remove _ | .mkdir .. | .rmdir _ | .getstat _ =>
    none

def Operation.kind : Operation → Kind
  | .open .. => .open
  | .close _ => .close
  | .read .. => .read
  | .write .. => .write
  | .lseek .. => .lseek
  | .opendir _ => .opendir
  | .closedir _ => .closedir
  | .readdir _ => .readdir
  | .remove _ => .remove
  | .mkdir .. => .mkdir
  | .rmdir _ => .rmdir
  | .getstat _ => .getstat

/-- The path at `off` of a packet, as the host gets it. -/
def pathArgument (m : List Byte) (off : Nat) : List Byte := hostPath (cstr (m.drop off))

/-- The operation a packet of kind `k` asks for. Every integer is in network byte order, but for
the mode of `mkdir`, which is taken in the byte order of the host. -/
def Kind.decode (e : Endian) (k : Kind) (m : List Byte) : Operation :=
  match k with
  | .open => .open (pathArgument m 10) (fixFlags (net32 m 6))
  | .close => .close (net32 m 6)
  | .read => .read (net32 m 6) (net32 m 10)
  | .write => .write (net32 m 6) (net32 m 10)
  | .lseek => .lseek (net32 m 6) (net32 m 10) (net32 m 14)
  | .opendir => .opendir (pathArgument m 10)
  | .closedir => .closedir (net32 m 6)
  | .readdir => .readdir (net32 m 6)
  | .remove => .remove (pathArgument m 6)
  | .mkdir => .mkdir (pathArgument m 10) (load32 e m 6)
  | .rmdir => .rmdir (pathArgument m 6)
  | .getstat => .getstat (pathArgument m 6)

variable {σ : Type} (h : Host σ) (e : Endian)

/-- Make the host calls of an operation and send its response. -/
def Operation.perform : Operation → Client σ → Int × Client σ
  | .open path flags, s => performOpen h e path flags s
  | .close fd, s => performClose h e fd s
  | .read fd size, s => performRead h e fd size s
  | .write fd size, s => performWrite h e fd size s
  | .lseek fd offset whence, s => performLseek h e fd offset whence s
  | .opendir path, s => performOpendir h e path s
  | .closedir dd, s => performClosedir h e dd s
  | .readdir dd, s => performReaddir h e dd s
  | .remove path, s => performRemove h e path s
  | .mkdir path mode, s => performMkdir h e path mode s
  | .rmdir path, s => performRmdir h e path s
  | .getstat path, s => performGetstat h e path s

end Ps2link
