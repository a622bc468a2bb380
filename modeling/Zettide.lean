import Zettide.Journal.Claims
import Zettide.Pool.Soundness
import Zettide.Pool.Undisturbed
import Zettide.Journal.Durable
import Zettide.Journal.Copies
import Zettide.Catalog.Retry
import Zettide.Catalog.Leaves
import Zettide.Catalog.Quarantine
import Zettide.Pool.PublicationOrder
import Zettide.Format.MembershipChain
import Zettide.Endpoint.Control
import Zettide.Endpoint.FileStore
import Zettide.Spdk.Runtime
import Zettide.Spdk.Storage
