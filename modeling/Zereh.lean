import Zereh.Link.Source
import Zereh.Xdp.RateBudget
import Zereh.Link.BloomSeed
import Zereh.Link.BloomWindow
import Zereh.Link.Generated
import Zereh.Link.PreRoute
import Zereh.Link.CaseLabels
import Zereh.Link.Fallback
import Zereh.Link.Isolation
import Zereh.Xdp.Checksum
import Zereh.Link.ProgArray
import Zereh.Control.Swap
import Zereh.Link.Spelling
import Zereh.Control.Template
import Zereh.Xdp.LabelText
import Zereh.Link.ExactMatch
import Zereh.Link.LetterCase
import Zereh.Link.Policy
import Zereh.Link.SharedBloom
import Zereh.Link.IndexRange
import Zereh.Control.KeyOrder
import Zereh.Control.FlatNested
import Zereh.Control.Verbatim
import Zereh.Control.Kinds
import Zereh.Link.Patterns
import Zereh.Link.Fragments
import Zereh.Xdp.ProofOfWork
import Zereh.Link.RrTypes
import Zereh.Control.Bounds
import Zereh.Link.PublishedHash
import Zereh.Link.Literals
import Zereh.Control.StringBuilder
import Zereh.Link.DataPlane
import Zereh.Link.SecondPass
import Zereh.Link.SwapAtomic
import Zereh.Apps.Receiver
import Zereh.Control.Log
import Zereh.Deploy.Deployed
