import Mathlib.Data.UInt

/-!
# The tables of known ROMs

Each table lists ROMs by their two checksums, as `rom_luts.c` has them.
-/

namespace ParallelN64.Rom

def lutAlternateVi : List UInt64 := [
  0x19C553A7A70F4B52, 0x4A1CD153D830AEF8, 0x3EB2E6F362F9EFE, 0x7A4747AC44EEEC23]

def lutViClock1500 : List UInt64 := [
  0x19C553A7A70F4B52, 0x4A1CD153D830AEF8, 0x3EB2E6F362F9EFE, 0x7A4747AC44EEEC23]

def lutViClock1600 : List UInt64 := [
  0x519EA4E1EB7584E8, 0xE688A5B8B14B3F18, 0xBBC99D32117DAA80]

def lutViClock2200 : List UInt64 := [
  0x7EAE24889D40A35A, 0xAF9DCC151A723D88, 0x3A6F8C6B2897BAEB, 0x9B500E8EE90550B3,
  0x2F493DD02E64DFD9, 0xAA18B1A507DB6AEB]

def lutFixedaudiopos : List UInt64 := [
  0x519EA4E1EB7584E8, 0xE688A5B8B14B3F18, 0xBBC99D32117DAA80]

/-- Games that use 16Kbit EEPROM. -/
def lutEe16k : List UInt64 := [
  0x975B7845A2505C18, 0x514B6900B4B19881, 0x155B7CDFF0DA7325, 0xC9176D39EA4779D1,
  0xC2E9AA9A475D70AA, 0x373F58899A6CA80A, 0x30C7AC507704072D, 0x83F3931ECB72223D,
  0xDFE61153D76118E6, 0x11936D8C6F2C4B43, 0x053C89A7A5064302, 0x0DD4ABABB5A2A91E,
  0xEC58EABFAD7C7169, 0xB6306E99B63ED2B2, 0xA8275140B9B056E8, 0x202A8EE483F88B89,
  0x861C3519F6091CE5, 0xAF754F7B1DD17381, 0x07861842A12EBC9F, 0x1739EFBAD0B43A68,
  0x616B84948A509210, 0xA197CB527520DE0E, 0x13836389265B3C76, 0xC56741600F5F453C,
  0x0B0AB4CD7B158937, 0x7C3829D96E8247CE, 0x839F3AD5406D15FA, 0x5001CF4FF30CB3BD,
  0x3A6C42B51ACADA1B, 0x147E0EDB36C5B12C, 0xF468118CE32EE44E, 0xE4B08007A602FF33,
  0x96747EB4104BB243, 0xDDF460CC3CA634C0, 0x41F2B98FB458B466, 0xFEE970104E94A9A0,
  0x2500267E2A7EC3CE, 0x53ED2DC406258002, 0x61F5B152046122AB, 0x72F703986556A98B,
  0x2DCFCA608354B147, 0xD3F97D496924135B, 0x2337D8E86B8E7CEC]

/-- Games that use 4Kbit EEPROM. -/
def lutEe4k : List UInt64 := [
  0xB98BA4565B2B76AF, 0x36F22FBF318912F2, 0x7A6081FCFF8F7A78, 0x62F6BE95F102D6D6,
  0x1B598BF1ECA29B45, 0x8CC182A6C2D0CAB0, 0xDFD784ADAE426603, 0xE185E2914E50766D,
  0xE340A49C74318D41, 0xE73C7C4FAF93B838, 0x5168D520CA5FCD0D, 0x733FCCB1444892F9,
  0xA4BF9306BF0CDFD1, 0xB088FBB4441E4B1D, 0x08FFA4B701F453B6, 0x7C64E6DB55B924DB,
  0x7C647C25D9D901E6, 0x7C647E651948D305, 0x65234451EBD3346F, 0x0B58B8CDB7B291D2,
  0x5326696FFE9A99C3, 0x5A160336BC7B37B0, 0xF568D51E7E49BA1E, 0x237E73B4D63B6B37,
  0xD85C4E2988E276AF, 0x4446FDD6E3788208, 0x67FF12CC76BF0212, 0xB9AF8CC6DEC9F19F,
  0xA4F2F521F0EB168E, 0x6420535A50028062, 0x2E3593393FA5EDA6, 0x214CAD94BE1A3B24,
  0x2BCCF9C4403D9F6F, 0xA794152861F1199D, 0xF8009DB06B291823, 0x46A3F7AF0F7591D0,
  0x503EA760E1300E96, 0xFF2F2FB4D161149A, 0x5306CF45CBC49250, 0xB34025547340C004,
  0xFD73F7759724755A, 0x596E145BF7D9879F, 0xF389A35A17785562, 0x7435C9BB39763CF4,
  0x53D440E77519B011, 0xE402430DD2FCFC9D, 0xC16C421BA21580F7, 0x3DF17480193DED5A,
  0xD52FE29D8EA6A759, 0x492B9DE8C6CCC81C, 0xDF5741919EB5123D, 0x6D9D1FE484D10BEA,
  0xCC3CC8B30EC405A4, 0xB70BAEE53A5005A8, 0x3844263466B3F060, 0x64BF47C4F4BD22BA,
  0x36F1C74BF2029939, 0x0C41F9C201717A0D, 0xFE94E570E4873A9C, 0x52F788058B8FCAB7,
  0x49E46C2D7B1A110C, 0xF523730199E3EE93, 0x8E6E01FFCCB4F948, 0x0414CA612E57B8AA,
  0xA24F4CF1A82327BA, 0xB57D4EB4345E09E5, 0xEE4A0E338FD588C9, 0xC49ADCA2F1501B62,
  0xD3F10E5D052EA579, 0xC1D702BD6D416547, 0xCA1BB86F41CCA5C5, 0x0C581C7A3D6E20E4,
  0xBCB1F89F060752A2, 0x8C138BE095700E46, 0xAF9DCC151A723D88, 0x3A6F8C6B2897BAEB,
  0xE436467A82DE8F9B, 0x979B263EF8470004, 0x9E8FE2BA8B270770, 0x9E8FCDFA49F5652B,
  0xF908CA4C36464327, 0x0D93BA11683868A6, 0x46039FB40337822C, 0x60460680305F0E72,
  0x964ADD0BB29213DB, 0x255018DF57D6AE3A, 0x2483F22B136E025E, 0xF4CBE92CB392ED12,
  0xD5356BAC97AE69D2, 0xC3B6DE9D65D2DE76, 0x2577C7D4D18FAAAE, 0x6BFF4758E5FF5D5E,
  0xC9C3A9875810344C, 0x3E5055B62E92DA52, 0x9C66306980F24A80, 0xADA815BE6028622F,
  0x2829657EA0621877, 0x82380387DFC744D9, 0xED567D0F38B08915, 0x9EA95858AF72B618,
  0x736AE6AF4117E9C7, 0xDED0DD9AE78225A7, 0xFA8C4571BBE7F9C0, 0x418BDA98248A0F58,
  0x0B93051B603D81F9, 0x2256ECDA71AB1B9C, 0x20095B34343D9E87, 0x93EB3F7E81675E44,
  0xEBA949DC39BAECBD, 0x5F6A04E2D4FA070D, 0x26035CF8802B9135, 0x5AC383E1D712E387,
  0xB8F0BD034479189E, 0xA6B6B41315D113CC, 0x2AF9B65C85E2A2D7, 0xC83CEB83FDC56219,
  0x73ABB1FB9CCA6093, 0xEE08C6026BC2D5A6, 0xB54CE881BCCB6126, 0x3F245305FC0B74AA,
  0x1AA05AD546F52D80, 0x09CC4801E42EE491, 0xC851961C78FCAAFA, 0x9FD375F845F32DC8,
  0x0C5EE085A167DD3E, 0x2EF4D519C64A0C5E, 0xC2751D1AF8C19BFF, 0x222123514046594B,
  0xFC70E27208FFE7AA, 0xBFE23884EF48EAAF, 0xFFCAA7C168858537, 0xA7D015F82289AA43,
  0xBA780BA00F21DB34, 0xB703EB2328AAE53A, 0x315C74663A453265, 0xDDD93C85DAE381E8,
  0x7EE0E8BB49E411AA, 0x219191C133183C61, 0x66A24BEC2EADD94F, 0x4D486681AB7D9245,
  0x264D7E5C18874622, 0x4147B09163251060, 0x4DD7ED5474F9287D, 0x827E4890958468DC,
  0xEAE6ACE2020B4384, 0x3D02989BD4A381E2, 0xD89E0E55B17AA99A, 0x94EDA5B88673E903,
  0xA03CF036BCC1C5D2, 0x4EAA3D0E74757C24, 0x635A2BFF8B022326, 0x85A772F1D5E7CDCA,
  0xD6FBA4A86326AA2C, 0x0FE684A98BB77AC4, 0x3C1FDABE02A4E0BA, 0x2B4F4EFB43C511FE,
  0x63E7391CE6CCEA33, 0xD09BA5381C1A5489, 0x0578F24F9175BF17, 0xD741CD80ACA9B912,
  0x90AF8D2CE1AC1B37, 0x636E6B19E57DDC5F, 0x4D0224A51BEB5794, 0x3C059038C8BF2182,
  0x2F57C9F7F1E29CA6, 0x93053075261E0F43, 0x0C5057AD046E126E, 0x8066D58AC3DECAC1,
  0x650EFA9630DDF9A7, 0x5C9191D6B30AC306, 0x7DE11F5374872F9D, 0x492F4B6104E5146A,
  0x535DF3E2609789F1, 0x0CEBC4C70C9CE932, 0x2D21C57B8FE4C58C, 0x13E959A00E93CAB0,
  0x9FE6162DE97E4037]

/-- Games that use FlashRAM. -/
def lutFlashram : List UInt64 := [
  0xAE5B9465C54D6576, 0xB5025BADD32675FD, 0x95286EB4B76AD58F, 0x68D7A1DE0079834A,
  0x8A6009B694ACE150, 0x36281F23009756CF, 0xE97955C6BC338D38, 0x0A5D8F8398C5371A,
  0x5354631C03A2DEF0, 0xB443EB084DB31193, 0x0EC158F5FB3E6896, 0x916852D873DBEAEF,
  0x3BA7CDDC464E52A0, 0x19AB29AFC71BCD28, 0x65EEE53AED7D733C, 0xEC0F690D32A7438C,
  0x637758865FB80E7B, 0xEE4FD7C29CF1D938, 0x4A1CD153D830AEF8, 0x3EB2E6F3062F9EFE,
  0x7A4747AC44EEEC23, 0x19C553A7A70F4B52, 0x7BB18D4083138559, 0x4FF5976FACF559D8,
  0xBA6C293A9FAFA338, 0x5753720D2A8A884D, 0xC0C8504661051B05, 0x817D286AEF417416,
  0xCA12B54771FA4EE4, 0x8407727557315B9C, 0x91C9E05DAD3AAFB9, 0xA23553A342BF2D39,
  0x42011E1BE3552DB5, 0xA53FA82DDAE2C15D, 0xB6E549CEDC8134C0, 0x90F5D9B39D0EDCF0,
  0x1A122D43C17DAF0F, 0x2952369CB6E4C3A8, 0xAC5AA5C7A9B0CDC3, 0x439B7E7EC1A1495D,
  0xEFCEAF0022094848, 0xD0A1FC5B2FB8074B, 0x03571182892FD06D, 0xD666593BD7A25C07,
  0xF163A242F2449B3B, 0xBC9B2CC34ED04DA5, 0x42CF5EA39A1334DF, 0x0684FBFB5D3EA8A5,
  0xE0C4F72F769E1506, 0x4EBFDD33664C9D84, 0x6D8DF08ED008C3CF, 0x8CDB94C2CB46C6F0,
  0x4E4B06401B49BCFB, 0xF7F52DB82195E636, 0xF611F4BAC584135C, 0xF43B45BA2F0E9B6F]

def lutDelaysi : List (UInt64 × UInt64) := [
  (0x514B6900B4B19881, 0), (0xC2E9AA9A475D70AA, 0), (0xC9176D39EA4779D1, 0),
  (0x155B7CDFF0DA7325, 0), (0x418BDA98248A0F58, 0), (0x0B93051B603D81F9, 0),
  (0x9FE6162DE97E4037, 0), (0x9F8B96C3A01194DC, 0)]

def lutAudiosignal : List UInt64 := [
  0xD614E5BFA76DBCC1, 0x001A3BD0AFB3DE1A, 0x4C2613234F295E1A, 0xCBFE69C7F2C0AB2A,
  0xB58988E9B1FC4BE8, 0x29A045CEABA9060E, 0xC8DC65EB3D8C8904, 0x3FFE80F4A7C15F7E,
  0x1FC215320B6466D4]

def lutSidmaduration : List (UInt64 × UInt64) := [
  (0x963ADBA6F7D5C89B, 0x64)]

/-- Cycles per emulated instruction. -/
def lutCpop : List (UInt64 × UInt64) := [
  (0xB98BA4565B2B76AF, 1), (0x9C961069F5EA488D, 1), (0x27C425D08C2D99C1, 1),
  (0x6C45B60CDCE50E30, 1), (0xB088FBB4441E4B1D, 1), (0xD76333AC0CB6219D, 1),
  (0xBCFACCAAB814D8EF, 1), (0x6AA4DDE7E3E2F4E7, 3), (0x75A4E2476008963D, 3),
  (0xA1B64A61D014940B, 3), (0x0B58B8CDB7B291D2, 1), (0x5326696FFE9A99C3, 1),
  (0x8F12C09645DC17E1, 1), (0x2B38AEC06350B810, 1), (0xDFF227D90D4D8169, 1),
  (0xF63B89CE4582D57D, 1), (0x82DC04FDCF2D82F4, 1), (0xAC16400ECF5D071A, 1),
  (0x580162ECE3108BF1, 1), (0xE48E01F5E6E51F9B, 1), (0xF00F2D4E340FAAF4, 1),
  (0xFB3C48D08D28F69F, 1), (0x1E0E96E84E28826B, 1), (0xF8009DB06B291823, 1),
  (0x373F58899A6CA80A, 3), (0x30C7AC507704072D, 3), (0x630AA37D896BD7DB, 1),
  (0xDEE584A20F161187, 1), (0xC16C421BA21580F7, 3), (0xD614E5BFA76DBCC1, 1),
  (0x001A3BD0AFB3DE1A, 1), (0x4C2613234F295E1A, 1), (0xCBFE69C7F2C0AB2A, 1),
  (0x3DF17480193DED5A, 3), (0xD52FE29D8EA6A759, 1), (0x11936D8C6F2C4B43, 1),
  (0x053C89A7A5064302, 1), (0x0DD4ABABB5A2A91E, 1), (0xEC58EABFAD7C7169, 1),
  (0xFBB9F1FA6BF88689, 1), (0xDC36626A3F3770CB, 1), (0x32CA974BB2C29C50, 1),
  (0x04DAF07F0D18E688, 1), (0x6D9D1FE484D10BEA, 1), (0x202A8EE483F88B89, 1),
  (0x07861842A12EBC9F, 1), (0x66CF0FFEAD697F9C, 1), (0x32EFC7CBC3EA3F20, 1),
  (0x22E9623FB60E52AD, 1), (0xA92D52E51D26B655, 1), (0xF774EAEEF0D8B13E, 1),
  (0xEE4A0E338FD588C9, 1), (0xC49ADCA2F1501B62, 1), (0xB57D4EB4345E09E5, 1),
  (0x95A80114E0B72A7F, 1), (0x775AFA9C0EB52EF6, 1), (0x98DF9DFC6606C189, 1),
  (0xAE90DBEB79B89123, 1), (0x7F3CEB778981030A, 1), (0x95B2B30B2B6415C1, 1),
  (0x5C1B5FBD7E961634, 1), (0x9AB3B50ABC666105, 1), (0x66751A5754A29D6E, 1),
  (0x35FF8F1A6E79E3BE, 1), (0x72611D7D9919BDD2, 3), (0xB58988E9B1FC4BE8, 1),
  (0x29A045CEABA9060E, 1), (0xC8DC65EB3D8C8904, 1), (0x979B263EF8470004, 1),
  (0x9E8FE2BA8B270770, 1), (0xCB06B744633194DB, 1), (0x06CB44B73163DB94, 1),
  (0x9E8FE2BA8B270770, 1), (0x06CB44B73163DB94, 1), (0xCB06B744633194DB, 1),
  (0x9E8FCDFA49F5652B, 1), (0xF908CA4C36464327, 1), (0x06CB44B73163DB94, 1),
  (0xF908CA4C36464327, 1), (0xAF9DCC151A723D88, 1), (0x3A6F8C6B2897BAEB, 1),
  (0x8C138BE095700E46, 1), (0xE2D37CF0F57E4EAE, 1), (0x5F2763C462412AE5, 1),
  (0x6EDD4766A93E9BA8, 3), (0xE0A79F8C32CC97FA, 1), (0xF478D8B39716DD6D, 3),
  (0x096A40EA8ABE0A10, 3), (0xFBB9F1FA6BF88689, 1), (0x0CB816865FD85A81, 1),
  (0xEB38F792190EA246, 1), (0xD7134F8DC11A00B5, 1), (0x3925D6258C83C75E, 1),
  (0xDEB78BBA52F6BD9D, 1), (0xD5356BAC97AE69D2, 1), (0x9C66306980F24A80, 1),
  (0xADA815BE6028622F, 1), (0x2829657EA0621877, 1), (0x82380387DFC744D9, 1),
  (0xED567D0F38B08915, 1), (0x9EA95858AF72B618, 1), (0xC56741600F5F453C, 1),
  (0x0B0AB4CD7B158937, 1), (0x7C3829D96E8247CE, 1), (0x5AC383E1D712E387, 1),
  (0xD3D806FCB43AA2A8, 3), (0xB19AD9997E585118, 3), (0x7F9345D3841ECADE, 1),
  (0xA292524F3D6C2A49, 1), (0x3FFE80F4A7C15F7E, 1), (0x2857674DCC4337DA, 1),
  (0xCD3C3CDF317793FA, 1), (0x8A97A197272DF6C1, 1), (0x8F50B845D729D22F, 1),
  (0x4998DDBBF7B7AEBC, 1), (0xD83BB920CC406416, 1), (0x3BA7CDDC464E52A0, 1),
  (0x19AB29AFC71BCD28, 1), (0x65EEE53AED7D733C, 1), (0x1AA05AD546F52D80, 3),
  (0x09CC4801E42EE491, 3), (0xC851961C78FCAAFA, 3), (0x9BA10C4E0408ABD3, 1),
  (0x1BDCB30FA132D876, 1), (0x3918834A15B50C29, 1), (0xE921953313FBAFBD, 1),
  (0x02D8366A6CABEF9C, 3), (0xF050746C247B820B, 3), (0x0B6B4DDB9671E682, 1),
  (0xB7CF2136FA0AA715, 1), (0xEDD6E03168136013, 1), (0x51D29418D5B46AE3, 1),
  (0xB9A9ECA217AAE48E, 1), (0x315C74663A453265, 1), (0x60C437E5A2251EE3, 1),
  (0xEA06F8C307C2DEED, 1), (0x84D5FD75BBFD3CDF, 1), (0x3A4760B52D74D410, 1),
  (0xD137A2CA62B65053, 1), (0xA3A044B56DB1BF5E, 1), (0xE0C4F72F769E1506, 1),
  (0x4EBFDD33664C9D84, 1), (0x90AF8D2CE1AC1B37, 1), (0xCCEB385826952D97, 1),
  (0xCB93DB977F5C63D5, 1), (0x782A9075E552631D, 1), (0xA150743ECF2522CD, 1),
  (0xFE4B6B43081D29A7, 1), (0x28D5562DE4D5AE50, 1), (0x98F9F2D003D9F09C, 1),
  (0x4E4A7643A37439D7, 1), (0x2F57C9F7F1E29CA6, 1), (0xD715CC70271CF5D6, 1),
  (0xF7FE28F6C3F2ACC3, 1), (0x535DF3E2609789F1, 3), (0xD4C45A1AF425B25E, 3),
  (0x68E8A8750CE7A486, 1), (0xDEE596ABAF3B7AE7, 1), (0xCEA8B54F7F21D503, 3),
  (0xDCB6EAFAC6BBCFA3, 3), (0x54310E7D6B5430D8, 1), (0x132D2732C70E9118, 1),
  (0x9F8B96C3A01194DC, 1), (0x0553AE9DEAD8E0C1, 3), (0x0A1667C7293346A6, 3)]

end ParallelN64.Rom
