import Bomberrobots.Library.Machine
import Bomberrobots.Library.Bisimulation
import Bomberrobots.Library.Framing
import Bomberrobots.Library.WhileLoop
import Bomberrobots.Library.DataRefinement
import Bomberrobots.Library.Mailbox
import Bomberrobots.Library.Progress
import Bomberrobots.Library.Lehmer
import Bomberrobots.Server.Connections
import Bomberrobots.Server.Steps
import Bomberrobots.Server.Phases
import Bomberrobots.Server.Invariant
import Bomberrobots.Server.Safety
import Bomberrobots.Server.Protocol
import Bomberrobots.Server.Sessions
import Bomberrobots.Server.Pairing
import Bomberrobots.Server.Greeting
import Bomberrobots.Server.Authority
import Bomberrobots.Server.Replay
import Bomberrobots.Server.Lifecycle
import Bomberrobots.Server.TurnShape
import Bomberrobots.Server.Hits
import Bomberrobots.Server.Framing
import Bomberrobots.Server.Joins
import Bomberrobots.Server.Rewiring
import Bomberrobots.Server.Renewal
import Bomberrobots.Server.Blast
import Bomberrobots.Server.Bounds
import Bomberrobots.Server.Arithmetic
import Bomberrobots.Server.Volley
import Bomberrobots.Server.Moves
import Bomberrobots.Server.Cursor
import Bomberrobots.Server.Grammar
import Bomberrobots.Server.SlotTable
import Bomberrobots.Server.Commute
import Bomberrobots.Server.Progress
import Bomberrobots.Server.Draws
import Bomberrobots.Server.Fits
import Bomberrobots.Client.Receive
import Bomberrobots.Client.Reading
import Bomberrobots.Client.Follow
import Bomberrobots.Client.Positions
import Bomberrobots.Client.Scores
import Bomberrobots.Client.Socket
import Bomberrobots.Client.Wire
import Bomberrobots.Client.Segments
import Bomberrobots.Client.Lobby
import Bomberrobots.Client.Blocks
import Bomberrobots.Client.Bombs
import Bomberrobots.Client.Explosions
import Bomberrobots.Client.Draw
import Bomberrobots.Client.Parameters
import Bomberrobots.Client.Names
import Bomberrobots.Client.Input
import Bomberrobots.Client.Layout
import Bomberrobots.Game.Field
import Bomberrobots.Game.Play
import Bomberrobots.Game.Bombs
import Bomberrobots.System.Network
import Bomberrobots.System.Replica
import Bomberrobots.System.Safety
import Bomberrobots.System.Stream
import Bomberrobots.System.Screen
