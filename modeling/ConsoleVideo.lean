import ConsoleVideo.Devices
import ConsoleVideo.Dma.Transfer
import ConsoleVideo.Main
import ConsoleVideo.Proofs.Arithmetic.Run
import ConsoleVideo.Proofs.Command.Spelling
import ConsoleVideo.Proofs.Gpu.Feeding
import ConsoleVideo.Proofs.Bus.Lanes
import ConsoleVideo.Proofs.Bus.RegisterMap
import ConsoleVideo.Proofs.Dma.Clearing
import ConsoleVideo.Proofs.Dma.Failure
import ConsoleVideo.Proofs.Dma.Relay
import ConsoleVideo.Proofs.Drawing.Distinct
import ConsoleVideo.Proofs.Drawing.Fills
import ConsoleVideo.Proofs.Drawing.Scissors
import ConsoleVideo.Proofs.Drawing.Sprites
import ConsoleVideo.Proofs.Exchange
import ConsoleVideo.Proofs.Gpu.Information
import ConsoleVideo.Proofs.Gpu.Resolution
import ConsoleVideo.Proofs.Gpu.StatusHistory
import ConsoleVideo.Proofs.Replay
import ConsoleVideo.Proofs.Snapshot.Flags
import ConsoleVideo.Proofs.Snapshot.Picture
import ConsoleVideo.Proofs.Snapshot.Steps
import ConsoleVideo.Proofs.Surface
import ConsoleVideo.Proofs.Timing.Frame
