import Reffs.D1.Authority
import Reffs.D1.Guards
import Reffs.D1.Holes
import Reffs.D1.Probe
import Reffs.D1.Rollback
import Reffs.D1.Snapshot
import Reffs.Locks.Refinement
import Reffs.Proxy.WriteBack
import Reffs.Proxy.References
import Reffs.Ec.Recovery
import Reffs.Ec.MojetteRepair
import Reffs.D2.Super
import Reffs.Chunk.Exclusion
import Reffs.Chunk.Quarantine
import Reffs.Chunk.Guards
import Reffs.Chunk.Persistence
import Reffs.Chunk.Durability
import Reffs.Chunk.Atomicity
import Reffs.Layout.Durable
import Reffs.Export
