import LedWall.Files.Memory
import LedWall.Link.Loopback

/-!
# Rehearsals

Files in memory together with a network inside the program, on which commands can be carried out
without consequences.
-/

namespace LedWall

structure Rehearsal where
  files : MemoryFiles
  network : Loopback

namespace Rehearsal

def onFiles {α : Type} (x : StateM MemoryFiles α) : StateM Rehearsal α := fun r =>
  let (a, files) := x.run r.files
  (a, { r with files })

def onNetwork {α : Type} (x : StateM Loopback α) : StateM Rehearsal α := fun r =>
  let (a, network) := x.run r.network
  (a, { r with network })

instance : Files (StateM Rehearsal) where
  read path := onFiles (Files.read path)
  makeDirectory path := onFiles (Files.makeDirectory path)
  write path text := onFiles (Files.write path text)

instance : Network (StateM Rehearsal) Loopback.Socket where
  connect endpoint := onNetwork (Network.connect endpoint)
  write socket datagram := onNetwork (Network.write socket datagram)

end Rehearsal

end LedWall
