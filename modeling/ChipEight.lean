import ChipEight.CommandLine.FileTree
import ChipEight.Main
import ChipEight.Proofs.ArgumentOrder
import ChipEight.Proofs.AssemblyText
import ChipEight.Proofs.CallMatching
import ChipEight.Proofs.Checked.Aliasing
import ChipEight.Proofs.Checked.Building
import ChipEight.Proofs.Checked.Faults
import ChipEight.Proofs.Checked.Ownership
import ChipEight.Proofs.Checked.Reset
import ChipEight.Proofs.ColorText
import ChipEight.Proofs.Dialects
import ChipEight.Proofs.EndlessWait
import ChipEight.Proofs.FairPacing
import ChipEight.Proofs.FirstObstacle
import ChipEight.Proofs.FlagArithmetic
import ChipEight.Proofs.FrameOutputs
import ChipEight.Proofs.FramePolling
import ChipEight.Proofs.Independence
import ChipEight.Proofs.ProgramCounter
import ChipEight.Proofs.RandomBytes
import ChipEight.Proofs.RegisterTransfer
import ChipEight.Proofs.RunSummary
import ChipEight.Proofs.SpriteComposition
import ChipEight.Proofs.StaleWait
import ChipEight.Proofs.ToneEvents
import ChipEight.Proofs.UnreadMemory
