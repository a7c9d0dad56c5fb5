import ManagedHeap.Ledger
import ManagedHeap.Proofs.Amortization
import ManagedHeap.Proofs.BagOrder
import ManagedHeap.Proofs.DequeMemory
import ManagedHeap.Proofs.FailedAllocations
import ManagedHeap.Proofs.PolicyRuns
import ManagedHeap.Proofs.PropertyWrites
import ManagedHeap.Proofs.PrototypeRuns
import ManagedHeap.Proofs.StoreLog
import ManagedHeap.Proofs.RootSets
import ManagedHeap.Proofs.Absorption
import ManagedHeap.Proofs.CachedMethods
import ManagedHeap.Proofs.Locality
import ManagedHeap.Proofs.NumberBoxing
import ManagedHeap.Proofs.ObjectView
