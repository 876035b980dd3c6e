import Wiretap.Policy.Registry
import Wiretap.Policy.Storage
/-!
# The policy book: a registry and the disk that may keep it

A registry that is persistent and has a storage path is written to its file after a rule is set,
after a socket or data source is noted for the first time, and when keeping is switched on; a
document that is merged, and a clearing, are not written.  Should a writing fail, the change stands
all the same and nobody is told; only whoever asks for the registry to be saved learns whether it
was.
-/

namespace Wiretap

/-- A registry and a disk. -/
structure Book where
  registry : Registry := {}
  disk : Disk := {}
  deriving Inhabited

namespace Book

/-- Writes the registry to a file. -/
def saveTo (b : Book) (path : String) : Except StorageError Unit × Book :=
  let (result, disk) := b.disk.writeDocument (.ofText path) b.registry.toDocument
  (result.mapError .disk, { b with disk := disk })

/-- Writes the registry to its own file. -/
def save (b : Book) : Except StorageError Unit × Book :=
  match b.registry.storage with
  | some path => b.saveTo path
  | none => (.error .noPath, b)

/-- Writes the registry to its own file if that is to be done after every change. -/
def keep (b : Book) : Book := if b.registry.persistent then b.save.2 else b

/-- Makes the registry the one that a file describes, which becomes its own file. -/
def openFile (b : Book) (path : String) : Except StorageError Book :=
  (b.disk.readDocument (.ofText path)).map fun document =>
    { b with registry := { Registry.ofDocument document with storage := some path } }

/-- Takes over the records of the document that bytes hold.  The registry is not kept after that,
persistent or not. -/
def readFrom (b : Book) (bytes : ByteArray) : Decoded Book :=
  (b.registry.readFrom bytes).map fun registry => { b with registry := registry }

/-- Sets the rule of a socket pattern. -/
def setSocket (b : Book) (pattern : SocketPattern) (status : Status) : Book :=
  { b with registry := b.registry.setSocket pattern status }.keep

/-- Sets the rule of a data source pattern. -/
def setDataSource (b : Book) (pattern : DataSourcePattern) (status : Status) : Book :=
  { b with registry := b.registry.setDataSource pattern status }.keep

/-- Switches keeping on or off. -/
def setPersistent (b : Book) (on : Bool) : Book :=
  { b with registry := { b.registry with persistent := on } }.keep

/-- Notes a socket; the registry is kept only if that is new. -/
def noteSocket (b : Book) (host : String) (port : UInt16) : Book :=
  if b.registry.sockets.contains (.exact host port) then b
  else { b with registry := b.registry.noteSocket host port }.keep

/-- Notes a data source; the registry is kept only if that is new. -/
def noteDataSource (b : Book) (url : String) (user : Option String) : Book :=
  if b.registry.dataSources.contains ⟨some url, user⟩ then b
  else { b with registry := b.registry.noteDataSource url user }.keep

/-- The status of a socket, which is noted. -/
def resolveSocket (b : Book) (host : String) (port : UInt16) : Status × Book :=
  (b.registry.socketStatus host port, b.noteSocket host port)

/-- The status of a data source, which is noted. -/
def resolveDataSource (b : Book) (url : String) (user : Option String) : Status × Book :=
  (b.registry.dataSourceStatus url user, b.noteDataSource url user)

/-- Empties the registry.  Its file is left alone. -/
def clear (b : Book) : Book := { b with registry := b.registry.clear }

/-- Where the registry is to be kept from now on. -/
def setStorage (b : Book) (path : Option String) : Book :=
  { b with registry := { b.registry with storage := path } }

end Book

end Wiretap
