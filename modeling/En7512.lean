import En7512.Logic.Program
import En7512.Logic.Layers
import En7512.Logic.Asynchrony
import En7512.Bmt.Retirement
import En7512.Bmt.Reconstruction
import En7512.Bmt.Exhaustion
import En7512.Bmt.Preservation
import En7512.Bmt.Atomicity
import En7512.Bmt.Allocation
import En7512.Bmt.Corruption
import En7512.Bmt.PowerLoss
import En7512.Bmt.Counters
import En7512.Nand.OobLoops
import En7512.Spi.Controller
import En7512.Spi.FlashTable
import En7512.Spi.NandChip
import En7512.Spi.Protocol
import En7512.Spi.PageLayer
import En7512.Spi.Probe
import En7512.Net.Tftp
import En7512.Net.Eth
import En7512.Net.TftpAck
import En7512.Net.Lan
import En7512.Net.Completion
import En7512.Net.OnFrames
import En7512.Net.Arp
import En7512.Net.Checksum
import En7512.Net.EthTxDma
import En7512.Net.QdmaTx
import En7512.Net.QdmaRx
import En7512.Net.MultiBoot
import En7512.Flash.ByteArray
import En7512.Flash.EccFailure
import En7512.Flash.PoolSize
import En7512.Flash.BlockErase
import En7512.Flash.WriteLength
import En7512.Flash.BootPaths
import En7512.Flash.Looks
import En7512.Flash.OnWires
import En7512.Mtd.Programming
import En7512.Logic.Records
import En7512.Net.Frames
import En7512.Net.Host
