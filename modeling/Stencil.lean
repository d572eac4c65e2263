import Stencil.Main
import Stencil.Group.Renderer
import Stencil.Proofs.WellFormed
import Stencil.Proofs.Building
import Stencil.Proofs.Scoping
import Stencil.Proofs.Rereading
import Stencil.Proofs.Termination
import Stencil.Proofs.Transparency
import Stencil.Proofs.Isolation
import Stencil.Proofs.Tracing
import Stencil.Proofs.Containment
import Stencil.Proofs.Seclusion
import Stencil.Proofs.Homes
import Stencil.Proofs.Checking
import Stencil.Proofs.Announcing
import Stencil.Proofs.Recording
import Stencil.Proofs.Writers
import Stencil.Proofs.Acceptance
import Stencil.Proofs.Lasting
import Stencil.Proofs.Positions
import Stencil.Proofs.Separators
import Stencil.Proofs.Excerpts
import Stencil.Proofs.Ranges
import Stencil.Proofs.Paths
import Stencil.Proofs.Early
import Stencil.Proofs.Constructs
import Stencil.Proofs.Delivering
import Stencil.Proofs.Pointing
import Stencil.Proofs.Rearranging
import Stencil.Proofs.Versions
import Stencil.Proofs.Binding
import Stencil.Proofs.Views
import Stencil.Proofs.Calling
import Stencil.Proofs.Stores
import Stencil.Proofs.Outcomes
import Stencil.Proofs.Editions
import Stencil.Proofs.Evenly
import Stencil.Proofs.Interchange
import Stencil.Proofs.Renditions
import Stencil.Proofs.Forms
import Stencil.Proofs.Elements
import Stencil.Proofs.Addresses
import Stencil.Proofs.Nearest
import Stencil.Proofs.Suggestions
import Stencil.Proofs.Directories
import Stencil.Proofs.Labels
import Stencil.Proofs.Requests
import Stencil.Proofs.Bounds
