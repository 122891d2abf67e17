import SlabAllocator.ByteMem
import SlabAllocator.DoublyLinked
import SlabAllocator.Runs
import SlabAllocator.BlockHeap
import SlabAllocator.Machine
import SlabAllocator.Fields
import SlabAllocator.Slab
import SlabAllocator.Pool
import SlabAllocator.Smalloc
import SlabAllocator.Layout
import SlabAllocator.FreeList
import SlabAllocator.SlabOps
import SlabAllocator.SlabRuns
import SlabAllocator.SlabPayload
import SlabAllocator.PoolList
import SlabAllocator.SlabCreate
import SlabAllocator.PoolModel
import SlabAllocator.PoolOps
import SlabAllocator.PoolRuns
import SlabAllocator.PoolLaws
import SlabAllocator.PoolSet
import SlabAllocator.Buffers
import SlabAllocator.SmallocOps
import SlabAllocator.SmallocRuns
import SlabAllocator.Ownership
import SlabAllocator.Dispatch
import SlabAllocator.Contents
import SlabAllocator.Realloc
import SlabAllocator.ListLaws
import SlabAllocator.PageLaws
import SlabAllocator.Traced
import SlabAllocator.FreeListBounds
import SlabAllocator.PoolServe
import SlabAllocator.Effects
import SlabAllocator.Resize
import SlabAllocator.Reinit
import SlabAllocator.Checked
import SlabAllocator.CheckedOps
import SlabAllocator.CheckedRuns
import SlabAllocator.DoubleFree
import SlabAllocator.SizeClasses
import SlabAllocator.SlabSet
import SlabAllocator.Footprint
import SlabAllocator.Clients
import SlabAllocator.Supply
import SlabAllocator.Early
import SlabAllocator.Placement
import SlabAllocator.Batches
import SlabAllocator.Benchmarks
import SlabAllocator.Alignment
