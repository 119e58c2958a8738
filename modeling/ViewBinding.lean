import ViewBinding.Compiler
import ViewBinding.Session.Run
import ViewBinding.Visit
import ViewBinding.World
import ViewBinding.Proofs.Table.Ordered
import ViewBinding.Proofs.Store.Rewiring
import ViewBinding.Proofs.Store.Succession
import ViewBinding.Proofs.Session.Quiet
import ViewBinding.Proofs.Session.Induction
import ViewBinding.Proofs.Session.History
import ViewBinding.Proofs.Session.Sound
import ViewBinding.Proofs.Session.Steps
import ViewBinding.Proofs.Session.Invariants
import ViewBinding.Proofs.World.Sweeping
import ViewBinding.Proofs.Delivery.Freshness
import ViewBinding.Proofs.Delivery.Supersession
import ViewBinding.Proofs.Delivery.Snapshot
import ViewBinding.Proofs.Tree.Lookup
import ViewBinding.Proofs.Tree.Rearranging
import ViewBinding.Proofs.View.Picture
import ViewBinding.Proofs.View.Fresh
import ViewBinding.Proofs.Compile.Dispatching
import ViewBinding.Proofs.Compile.Rendering
import ViewBinding.Proofs.Compile.Itinerary
import ViewBinding.Proofs.Compile.Record
import ViewBinding.Proofs.Compile.Planning
import ViewBinding.Proofs.Compile.Tying
import ViewBinding.Proofs.Compile.Linking
import ViewBinding.Proofs.Compile.Undoing
import ViewBinding.Proofs.Compile.Influence
import ViewBinding.Proofs.Compile.Ordering
import ViewBinding.Proofs.Guards.Owned
import ViewBinding.Proofs.Guards.Wiring
import ViewBinding.Proofs.Guards.Worlds
import ViewBinding.Proofs.Guards.Sessions
import ViewBinding.Proofs.Live.Slots
import ViewBinding.Proofs.Live.Showing
import ViewBinding.Proofs.Live.Refresh
import ViewBinding.Proofs.Live.Binding
import ViewBinding.Proofs.Live.Following
import ViewBinding.Proofs.Live.Operating
import ViewBinding.Proofs.Live.Starting
import ViewBinding.Proofs.Live.Equivalence
import ViewBinding.Proofs.Tree.Replacing
import ViewBinding.Proofs.Tree.Links
import ViewBinding.Proofs.Tree.Rows
import ViewBinding.Proofs.Tree.Relinking
import ViewBinding.Proofs.World.Relinking
import ViewBinding.Proofs.World.Untouched
import ViewBinding.Proofs.Session.DataOnly
import ViewBinding.Proofs.Compile.Freezing
import ViewBinding.Proofs.View.Thinning
import ViewBinding.Proofs.Compile.Deleting
import ViewBinding.Proofs.Html.Escaping
import ViewBinding.Proofs.Html.Growing
import ViewBinding.Proofs.Html.RoundTrip
import ViewBinding.Proofs.Interpolation.Matches
import ViewBinding.Proofs.Interpolation.Blanks
import ViewBinding.Proofs.Store.Log
import ViewBinding.Proofs.Store.Balance
import ViewBinding.Proofs.Guards.Balance
import ViewBinding.Proofs.Guards.Aimed
import ViewBinding.Proofs.World.Splicing
import ViewBinding.Proofs.World.Content
import ViewBinding.Proofs.World.Induction
import ViewBinding.Proofs.World.Placing
import ViewBinding.Proofs.World.Traversing
import ViewBinding.Proofs.Live.Owning
import ViewBinding.Proofs.Session.Depth
import ViewBinding.Proofs.Session.NoNewObservers
import ViewBinding.Proofs.Delivery.Spreading
import ViewBinding.Proofs.Delivery.Mirroring
import ViewBinding.Proofs.Delivery.Settling
import ViewBinding.Proofs.Json.ReadingBack
import ViewBinding.Proofs.Json.Forms
import ViewBinding.Proofs.Listeners.Tables
import ViewBinding.Proofs.Listeners.Wiring
import ViewBinding.Proofs.Listeners.Worlds
import ViewBinding.Proofs.Listeners.Sessions
import ViewBinding.Proofs.Listeners.Dispatch
import ViewBinding.Proofs.Directive.Names
import ViewBinding.Proofs.World.Writing
