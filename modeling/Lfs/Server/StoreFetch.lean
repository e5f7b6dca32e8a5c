/-
A file that is uploaded and then downloaded.

An upload is received in the turns of `Reception`, and the callback behind the last turn gives the file
its final name and its record in the binlog.  A download sends it in the turns of `Download`.
-/
import Lfs.Server.Cleanup
import Lfs.Server.Download

namespace Lfs.Server

open Lfs.Lib

/-- An upload as one part, where all calls succeed. -/
structure Store (ι : Type*) where
  entry : List Byte → ι
  buffSize : ℕ
  fd : ℕ
  mountPath : List Byte
  fMapName : List Byte
  finalName : List Byte
  /-- The files before the upload. -/
  disk : Disk ι Byte
  input : List ReadEv

namespace Store

variable {ι : Type*} [DecidableEq ι] {j : Store ι} {u : Upload ι}

/-- The path of the file while it comes in. -/
def block (j : Store ι) : List Byte := blockMapName j.mountPath j.fMapName

/-- The path of the file in the end. -/
def final (j : Store ι) : List Byte := blockMapName j.mountPath j.finalName

/-- The upload after `handle_cmd_fileupload`. -/
def start (j : Store ι) : Upload ι :=
  .start (payload j.input).length (payload j.input).length j.mountPath j.fMapName j.disk j.input

def next (j : Store ι) (u : Upload ι) : Upload ι :=
  u.step j.entry j.buffSize j.mountPath j.finalName
    { DioEnv.ok j.fd with rename := true, binlogWrite := true }

/-- One step of the thread that works on the file. -/
def turn (j : Store ι) (r : Reception ι) : Reception ι := r.step j.entry j.buffSize (.ok j.fd)

/-- The upload is over, and the file has its final name. -/
structure Stored (j : Store ι) (u : Upload ι) : Prop where
  phase_eq : u.r.phase = .done
  reply_eq : u.reply = some .success
  binlog_eq : u.binlog = [j.finalName]
  disk_eq : u.r.disk = Function.update j.disk (j.entry j.final) (some (payload j.input))

end Store

end Lfs.Server
